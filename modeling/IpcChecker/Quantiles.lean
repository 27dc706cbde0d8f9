import IpcChecker.Host
import IpcChecker.Shared.Interpolation
import IpcChecker.Shared.Sorting
import Mathlib.Algebra.Order.Round
import Mathlib.Data.Rat.Floor

/-!
# Quantiles of the shippings

`Quantiles` with its arithmetic on doubles done in exact rationals. A quantile is the
value of the broken line through the sorted shippings, rounded down: the part that is
truncated toward zero is never negative. The counts of nanoseconds are whole numbers
of any size.
-/

namespace IpcChecker
open Shared
set_option autoImplicit false

/-- `duration_cast` to whole nanoseconds, which truncates toward zero. -/
def durationCast (x : ℚ) : Int := if 0 ≤ x then ⌊x⌋ else ⌈x⌉

/-- The shippings are counts of nanoseconds. -/
structure Quantiles where
  size : Nat
  shippings : List Int
  length_eq : shippings.length = size
  positive : 0 < size
  sorted : shippings.Pairwise (· ≤ ·)

namespace Quantiles

def new (shippings : List Int) : Except Failure Quantiles :=
  if h : 0 < shippings.length then
    .ok { size := shippings.length
          shippings := shippings.insertionSort (· ≤ ·)
          length_eq := List.length_insertionSort _ _
          positive := h
          sorted := List.pairwise_insertionSort _ _ }
  else .error .assertion

/-- The position of a quantile between the shippings. -/
def pos (q : Quantiles) (alpha : ℚ) : ℚ := alpha * (q.size - 1 : Nat)

/-- The indices of the two shippings around a position. -/
def indices (q : Quantiles) (alpha : ℚ) : Nat × Nat :=
  let idx := ⌊q.pos alpha⌋.toNat
  (idx, min (idx + 1) (q.size - 1))

/-- `Get`; an access outside the shippings is undefined, and fails here. -/
def get (q : Quantiles) (alpha : ℚ) : Except Failure Int :=
  if 0 ≤ alpha ∧ alpha ≤ 1 then
    let (idx, next) := q.indices alpha
    if (idx : ℚ) ≤ q.pos alpha then
      let frac := q.pos alpha - idx
      match q.shippings[idx]?, q.shippings[next]? with
      | some lo, some hi =>
        let delta := hi - lo
        .ok (lo + durationCast (delta * frac))
      | _, _ => .error .assertion
    else .error .assertion
  else .error .assertion

/-- The shippings as a sequence that stays at the last one. -/
def shipping (q : Quantiles) (i : Nat) : Int :=
  have h : min i (q.size - 1) < q.shippings.length := by
    have hpositive := q.positive
    rw [q.length_eq]
    omega
  q.shippings.get ⟨min i (q.size - 1), h⟩

/-- The broken line through the shippings. -/
def line (q : Quantiles) (alpha : ℚ) : ℚ := interpolate (fun i => (q.shipping i : ℚ)) (q.pos alpha)

section Line
variable {q : Quantiles} {alpha : ℚ}

theorem getElem?_shipping {i : Nat} (h : i < q.size) : q.shippings[i]? = some (q.shipping i) := by
  have hmin : min i (q.size - 1) = i := by omega
  unfold shipping
  rw [List.getElem?_eq_some_iff]
  refine ⟨by rw [q.length_eq]; exact h, ?_⟩
  simp only [List.get_eq_getElem, hmin]

theorem shipping_mono (q : Quantiles) {i j : Nat} (hij : i ≤ j) : q.shipping i ≤ q.shipping j := by
  have hle : min i (q.size - 1) ≤ min j (q.size - 1) := by omega
  rcases hle.eq_or_lt with hsame | hless
  · unfold shipping
    simp only [hsame]
    exact le_rfl
  · exact List.pairwise_iff_get.mp q.sorted _ _ hless

theorem pos_nonneg (h0 : 0 ≤ alpha) : 0 ≤ q.pos alpha :=
  mul_nonneg h0 (Nat.cast_nonneg _)

theorem floor_pos_le (h1 : alpha ≤ 1) : ⌊q.pos alpha⌋₊ ≤ q.size - 1 := by
  have hle : q.pos alpha ≤ (q.size - 1 : Nat) := mul_le_of_le_one_left (Nat.cast_nonneg _) h1
  exact Nat.floor_le_of_le hle

theorem indices_eq (q : Quantiles) (alpha : ℚ) :
    q.indices alpha = (⌊q.pos alpha⌋₊, min (⌊q.pos alpha⌋₊ + 1) (q.size - 1)) := rfl

theorem get_eq (h0 : 0 ≤ alpha) (h1 : alpha ≤ 1) : q.get alpha = .ok ⌊q.line alpha⌋ := by
  have hpos := pos_nonneg (q := q) h0
  have hidx := floor_pos_le (q := q) h1
  have hsize := q.positive
  have hlo := getElem?_shipping (q := q) (i := ⌊q.pos alpha⌋₊) (by omega)
  have hhi := getElem?_shipping (q := q) (i := min (⌊q.pos alpha⌋₊ + 1) (q.size - 1)) (by omega)
  have hnext : q.shipping (min (⌊q.pos alpha⌋₊ + 1) (q.size - 1)) =
      q.shipping (⌊q.pos alpha⌋₊ + 1) := by
    unfold shipping
    simp only [Nat.min_assoc, Nat.min_self]
  have hdelta : (0 : ℚ) ≤ (q.shipping (⌊q.pos alpha⌋₊ + 1) - q.shipping ⌊q.pos alpha⌋₊ : Int) := by
    exact_mod_cast sub_nonneg.mpr (q.shipping_mono (Nat.le_succ _))
  have hpart := mul_nonneg hdelta (Interpolate.part_nonneg hpos)
  unfold get
  rw [if_pos ⟨h0, h1⟩, indices_eq]
  simp only [if_pos (Nat.floor_le hpos), hlo, hhi, hnext]
  unfold durationCast
  rw [if_pos hpart, ← Int.floor_intCast_add]
  unfold line interpolate
  push_cast
  rfl

theorem line_mono {a b : ℚ} (h0 : 0 ≤ a) (hab : a ≤ b) : q.line a ≤ q.line b := by
  have hpos : q.pos a ≤ q.pos b := mul_le_mul_of_nonneg_right hab (Nat.cast_nonneg _)
  have hshippings : Monotone fun i => (q.shipping i : ℚ) := fun _ _ hij =>
    Int.cast_le.mpr (q.shipping_mono hij)
  exact Interpolate.mono hshippings (pos_nonneg h0) hpos

theorem line_zero (q : Quantiles) : q.line 0 = q.shipping 0 := by
  have hpos : q.pos 0 = (0 : Nat) := by simp [pos]
  unfold line
  rw [hpos]
  exact Interpolate.at_natCast _ 0

theorem line_one (q : Quantiles) : q.line 1 = q.shipping (q.size - 1) := by
  have hpos : q.pos 1 = (q.size - 1 : Nat) := by simp [pos]
  unfold line
  rw [hpos]
  exact Interpolate.at_natCast _ _

theorem line_at {k : Nat} (h : 1 < q.size) : q.line (k / (q.size - 1 : Nat)) = q.shipping k := by
  have hne : ((q.size - 1 : Nat) : ℚ) ≠ 0 := Nat.cast_ne_zero.mpr (by omega)
  have hpos : q.pos (k / (q.size - 1 : Nat)) = k := div_mul_cancel₀ _ hne
  unfold line
  rw [hpos]
  exact Interpolate.at_natCast _ k

end Line

theorem new_eq {xs : List Int} (h : xs ≠ []) :
    ∃ q, new xs = .ok q ∧ q.size = xs.length ∧ q.shippings = xs.insertionSort (· ≤ ·) := by
  unfold new
  rw [dif_pos (List.length_pos_iff.mpr h)]
  exact ⟨_, rfl, rfl, rfl⟩

theorem new_perm {xs ys : List Int} (h : xs.Perm ys) : new xs = new ys := by
  unfold new
  simp only [h.length_eq, Sorting.sort_eq_of_perm h]

theorem shipping_bounds (q : Quantiles) {x : Int} (h : x ∈ q.shippings) :
    q.shipping 0 ≤ x ∧ x ≤ q.shipping (q.size - 1) := by
  obtain ⟨i, hi⟩ := List.mem_iff_getElem?.mp h
  obtain ⟨hlt, _⟩ := List.getElem?_eq_some_iff.mp hi
  rw [q.length_eq] at hlt
  rw [getElem?_shipping hlt] at hi
  rw [← Option.some.inj hi]
  exact ⟨q.shipping_mono (Nat.zero_le i), q.shipping_mono (by omega)⟩

theorem shipping_mem (q : Quantiles) (i : Nat) : q.shipping i ∈ q.shippings := List.get_mem _ _

/-- Quantiles are monotone in alpha, lie between the least and the greatest shipping, are the
shippings themselves at their positions, and do not depend on the order of the list. -/
theorem quantiles_well_behaved {xs : List Int} (hne : xs ≠ []) :
    ∃ q, new xs = .ok q ∧
      (∀ a b, 0 ≤ a → a ≤ b → b ≤ 1 → ∃ x y, q.get a = .ok x ∧ q.get b = .ok y ∧ x ≤ y) ∧
      (∀ a, 0 ≤ a → a ≤ 1 → (q.indices a).1 < xs.length ∧ (q.indices a).2 < xs.length ∧
        ∃ x least greatest, q.get a = .ok x ∧ least ∈ xs ∧ greatest ∈ xs ∧
          (∀ y ∈ xs, least ≤ y ∧ y ≤ greatest) ∧ least ≤ x ∧ x ≤ greatest) ∧
      (1 < xs.length → ∀ k < xs.length, ∃ x, q.get (k / (xs.length - 1 : Nat)) = .ok x ∧
        (xs.insertionSort (· ≤ ·))[k]? = some x) ∧
      ∀ ys, ys.Perm xs → new ys = .ok q := by
  obtain ⟨q, hnew, hsize, hsorted⟩ := new_eq hne
  have hpositive := q.positive
  have hmem : ∀ x, x ∈ q.shippings ↔ x ∈ xs := by
    intro x
    rw [hsorted, List.mem_insertionSort]
  refine ⟨q, hnew, ?_, ?_, ?_, fun ys hys => (new_perm hys).trans hnew⟩
  · intro a b h0 hab h1
    exact ⟨_, _, get_eq h0 (hab.trans h1), get_eq (h0.trans hab) h1,
      Int.floor_mono (line_mono h0 hab)⟩
  · intro a h0 h1
    have hidx := floor_pos_le (q := q) h1
    rw [indices_eq, ← hsize]
    refine ⟨by dsimp only; omega, by dsimp only; omega, _, q.shipping 0, q.shipping (q.size - 1),
      get_eq h0 h1, (hmem _).mp (q.shipping_mem _), (hmem _).mp (q.shipping_mem _), ?_, ?_, ?_⟩
    · exact fun y hy => q.shipping_bounds ((hmem y).mpr hy)
    · rw [Int.le_floor, ← line_zero]
      exact line_mono le_rfl h0
    · rw [← Int.floor_intCast (R := ℚ) (q.shipping (q.size - 1)), ← line_one]
      exact Int.floor_mono (line_mono h0 h1)
  · intro hmany k hk
    rw [← hsize] at hmany hk ⊢
    have hcast : (k : ℚ) ≤ (q.size - 1 : Nat) := Nat.cast_le.mpr (by omega)
    have h0 : (0 : ℚ) ≤ k / (q.size - 1 : Nat) := div_nonneg (Nat.cast_nonneg _) (Nat.cast_nonneg _)
    have h1 : (k : ℚ) / (q.size - 1 : Nat) ≤ 1 := div_le_one_of_le₀ hcast (Nat.cast_nonneg _)
    refine ⟨_, get_eq h0 h1, ?_⟩
    rw [line_at hmany, Int.floor_intCast, ← hsorted]
    exact getElem?_shipping hk

theorem quantiles_well_behaved_sample :
    ∃ q, new [-5, 20, -5, 7] = .ok q ∧
      ∃ x y, q.get (1 / 10) = .ok x ∧ q.get (1 / 2) = .ok y ∧ x ≤ y := by
  obtain ⟨q, hnew, hmono, _⟩ := quantiles_well_behaved (show [-5, 20, -5, 7] ≠ [] from nofun)
  exact ⟨q, hnew, hmono _ _ (by norm_num) (by norm_num) (by norm_num)⟩

/-! Two lists. -/

theorem line_le_line {p q : Quantiles} (hsize : p.size = q.size)
    (hle : Sorting.Below p.shippings q.shippings) {alpha : ℚ} (h0 : 0 ≤ alpha) :
    p.line alpha ≤ q.line alpha := by
  have hpos : p.pos alpha = q.pos alpha := by
    unfold pos
    rw [hsize]
  unfold line
  rw [hpos]
  apply Interpolate.mono_values _ (pos_nonneg h0)
  intro i
  apply Int.cast_le.mpr
  unfold shipping
  simp only [hsize]
  exact hle.get _ _

theorem line_add {p q : Quantiles} (hsize : p.size = q.size) {c : Int}
    (hadd : q.shippings = p.shippings.map (· + c)) (alpha : ℚ) :
    q.line alpha = p.line alpha + c := by
  have hpos : p.pos alpha = q.pos alpha := by
    unfold pos
    rw [hsize]
  have hshipping : ∀ i, (q.shipping i : ℚ) = p.shipping i + c := by
    intro i
    unfold shipping
    simp only [hadd, hsize, List.get_eq_getElem, List.getElem_map]
    push_cast
    rfl
  unfold line
  rw [← hpos, ← Interpolate.add_const]
  simp only [hshipping]

theorem sort_add (xs : List Int) (c : Int) :
    (xs.map (· + c)).insertionSort (· ≤ ·) = (xs.insertionSort (· ≤ ·)).map (· + c) := by
  symm
  apply List.map_insertionSort
  intro x _ y _
  exact (Int.add_le_add_iff_right c).symm

/-- Quantiles are monotone in the shippings, and move with a constant added to all of them. -/
theorem quantiles_monotone_in_data {xs : List Int} (hne : xs ≠ []) :
    ∃ p, new xs = .ok p ∧
      (∀ ys, List.Forall₂ (· ≤ ·) xs ys → ∃ q, new ys = .ok q ∧
        ∀ alpha, 0 ≤ alpha → alpha ≤ 1 →
          ∃ x y, p.get alpha = .ok x ∧ q.get alpha = .ok y ∧ x ≤ y) ∧
      ∀ c, ∃ q, new (xs.map (· + c)) = .ok q ∧
        ∀ alpha, 0 ≤ alpha → alpha ≤ 1 →
          ∃ x, p.get alpha = .ok x ∧ q.get alpha = .ok (x + c) := by
  obtain ⟨p, hp, hpsize, hpsorted⟩ := new_eq hne
  refine ⟨p, hp, ?_, ?_⟩
  · intro ys hle
    have hlength := hle.length_eq
    have hne' : ys ≠ [] := by
      rw [← List.length_pos_iff, ← hlength, List.length_pos_iff]
      exact hne
    obtain ⟨q, hq, hqsize, hqsorted⟩ := new_eq hne'
    have hsize : p.size = q.size := by rw [hpsize, hqsize, hlength]
    refine ⟨q, hq, fun alpha h0 h1 => ⟨_, _, get_eq h0 h1, get_eq h0 h1, ?_⟩⟩
    apply Int.floor_mono
    apply line_le_line hsize _ h0
    rw [hpsorted, hqsorted]
    exact Sorting.sort_below hle
  · intro c
    have hne' : xs.map (· + c) ≠ [] := mt List.map_eq_nil_iff.mp hne
    obtain ⟨q, hq, hqsize, hqsorted⟩ := new_eq hne'
    have hsize : p.size = q.size := by rw [hpsize, hqsize, List.length_map]
    refine ⟨q, hq, fun alpha h0 h1 => ⟨_, get_eq h0 h1, ?_⟩⟩
    rw [get_eq h0 h1, line_add hsize (by rw [hqsorted, hpsorted, sort_add]),
      Int.floor_add_intCast]

theorem quantiles_monotone_in_data_sample :
    ∃ p q, new [-3, -8, 2] = .ok p ∧ new [-3, 4, 2] = .ok q ∧
      ∃ x y, p.get (1 / 3) = .ok x ∧ q.get (1 / 3) = .ok y ∧ x ≤ y := by
  obtain ⟨p, hp, hmono, _⟩ := quantiles_monotone_in_data (show [-3, -8, 2] ≠ [] from nofun)
  have hle : List.Forall₂ (· ≤ ·) [(-3 : Int), -8, 2] [-3, 4, 2] :=
    .cons (by decide) (.cons (by decide) (.cons (by decide) .nil))
  obtain ⟨q, hq, hget⟩ := hmono _ hle
  exact ⟨p, q, hp, hq, hget _ (by norm_num) (by norm_num)⟩

end Quantiles
end IpcChecker
