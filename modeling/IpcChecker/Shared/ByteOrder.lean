import Mathlib.Data.List.Basic
import Mathlib.Algebra.Order.Ring.Nat
import Mathlib.Tactic.Ring

/-!
# Fixed-width byte strings of naturals

The two byte orders of a number written in `w` bytes, their inverses and the
fact that one is the reversal of the other.
-/

namespace Shared.ByteOrder
set_option autoImplicit false

/-- The `w` bytes of `n`, least significant first. -/
def littleEndian : Nat → Nat → List UInt8
  | 0, _ => []
  | w + 1, n => UInt8.ofNat n :: littleEndian w (n / 256)

/-- The `w` bytes of `n`, most significant first. -/
def bigEndian (w n : Nat) : List UInt8 := (littleEndian w n).reverse

def ofLittleEndian : List UInt8 → Nat
  | [] => 0
  | b :: bs => b.toNat + 256 * ofLittleEndian bs

def ofBigEndian (bs : List UInt8) : Nat := ofLittleEndian bs.reverse

@[simp] theorem littleEndian_length (w n : Nat) : (littleEndian w n).length = w := by
  induction w generalizing n with
  | zero => rfl
  | succ w ih => simp [littleEndian, ih]

@[simp] theorem bigEndian_length (w n : Nat) : (bigEndian w n).length = w := by
  simp [bigEndian]

theorem ofLittleEndian_lt (bs : List UInt8) : ofLittleEndian bs < 256 ^ bs.length := by
  induction bs with
  | nil => simp [ofLittleEndian]
  | cons b bs ih =>
    have hb := b.toNat_lt
    simp only [ofLittleEndian, List.length_cons, Nat.pow_succ]
    omega

theorem ofLittleEndian_littleEndian {w n : Nat} (h : n < 256 ^ w) :
    ofLittleEndian (littleEndian w n) = n := by
  induction w generalizing n with
  | zero =>
    have hn : n = 0 := by simpa using h
    simp [littleEndian, ofLittleEndian, hn]
  | succ w ih =>
    have hdiv : n / 256 < 256 ^ w := by
      rw [Nat.div_lt_iff_lt_mul (by omega)]
      simpa [Nat.pow_succ] using h
    have hlow : (UInt8.ofNat n).toNat = n % 256 := by simp
    rw [littleEndian, ofLittleEndian, ih hdiv, hlow]
    exact Nat.mod_add_div n 256

theorem littleEndian_ofLittleEndian (bs : List UInt8) :
    littleEndian bs.length (ofLittleEndian bs) = bs := by
  induction bs with
  | nil => rfl
  | cons b bs ih =>
    have hb := b.toNat_lt
    have hlow : UInt8.ofNat (b.toNat + 256 * ofLittleEndian bs) = b := by
      apply UInt8.toNat_inj.mp
      simp
    have hdiv : (b.toNat + 256 * ofLittleEndian bs) / 256 = ofLittleEndian bs := by omega
    simp only [List.length_cons, ofLittleEndian, littleEndian, hlow, hdiv, ih]

theorem ofBigEndian_bigEndian {w n : Nat} (h : n < 256 ^ w) :
    ofBigEndian (bigEndian w n) = n := by
  simpa [ofBigEndian, bigEndian] using ofLittleEndian_littleEndian h

end Shared.ByteOrder
