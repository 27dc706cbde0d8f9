import Mathlib.Algebra.Order.Floor.Semiring
import Mathlib.Algebra.Order.Field.Basic
import Mathlib.Tactic.Linarith
import Mathlib.Tactic.Ring

/-!
# Linear interpolation between the values of a sequence

`interpolate f t` lies on the broken line through the points `(i, f i)`.
-/

namespace Shared
set_option autoImplicit false

variable {K : Type*} [Field K] [LinearOrder K] [IsStrictOrderedRing K] [FloorSemiring K]

def interpolate (f : ℕ → K) (t : K) : K := f ⌊t⌋₊ + (f (⌊t⌋₊ + 1) - f ⌊t⌋₊) * (t - ⌊t⌋₊)

namespace Interpolate
variable {f g : ℕ → K} {s t : K}

theorem part_nonneg (ht : 0 ≤ t) : 0 ≤ t - ⌊t⌋₊ := sub_nonneg.mpr (Nat.floor_le ht)

theorem part_le_one (t : K) : t - ⌊t⌋₊ ≤ 1 := by
  have h := Nat.lt_floor_add_one t
  linarith

theorem at_natCast (f : ℕ → K) (n : ℕ) : interpolate f n = f n := by
  simp [interpolate]

theorem ge_left (hf : Monotone f) (ht : 0 ≤ t) : f ⌊t⌋₊ ≤ interpolate f t := by
  have hstep := sub_nonneg.mpr (hf (Nat.le_succ ⌊t⌋₊))
  have hmul := mul_nonneg hstep (part_nonneg ht)
  unfold interpolate
  linarith

theorem le_right (hf : Monotone f) (t : K) : interpolate f t ≤ f (⌊t⌋₊ + 1) := by
  have hstep := sub_nonneg.mpr (hf (Nat.le_succ ⌊t⌋₊))
  have hmul := mul_le_of_le_one_right hstep (part_le_one t)
  unfold interpolate
  linarith

/-- Within a piece the line rises; across pieces a point of the sequence lies between. -/
theorem mono (hf : Monotone f) (hs : 0 ≤ s) (hst : s ≤ t) : interpolate f s ≤ interpolate f t := by
  have ht := hs.trans hst
  rcases (Nat.floor_mono hst).eq_or_lt with hsame | hless
  · have hstep := sub_nonneg.mpr (hf (Nat.le_succ ⌊t⌋₊))
    have hpart : s - (⌊t⌋₊ : K) ≤ t - ⌊t⌋₊ := sub_le_sub_right hst _
    have hmul := mul_le_mul_of_nonneg_left hpart hstep
    unfold interpolate
    rw [hsame]
    linarith
  · calc interpolate f s ≤ f (⌊s⌋₊ + 1) := le_right hf s
      _ ≤ f ⌊t⌋₊ := hf hless
      _ ≤ interpolate f t := ge_left hf ht

theorem mono_values (hfg : ∀ i, f i ≤ g i) (ht : 0 ≤ t) : interpolate f t ≤ interpolate g t := by
  have hleft := mul_le_mul_of_nonneg_left (hfg ⌊t⌋₊) (sub_nonneg.mpr (part_le_one t))
  have hright := mul_le_mul_of_nonneg_left (hfg (⌊t⌋₊ + 1)) (part_nonneg ht)
  have hsplit : ∀ h : ℕ → K, interpolate h t =
      (1 - (t - ⌊t⌋₊)) * h ⌊t⌋₊ + (t - ⌊t⌋₊) * h (⌊t⌋₊ + 1) := by
    intro h
    unfold interpolate
    ring
  rw [hsplit f, hsplit g]
  linarith

omit [IsStrictOrderedRing K] in
theorem add_const (f : ℕ → K) (c t : K) :
    interpolate (fun i => f i + c) t = interpolate f t + c := by
  unfold interpolate
  ring

end Interpolate
end Shared
