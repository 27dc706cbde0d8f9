import Mathlib.Data.List.Sort
import Mathlib.Data.List.Forall2
import Mathlib.Order.Defs.LinearOrder

/-!
# Sorting keeps the pointwise order

If one list is at most another at every place, then so are the two sorted lists,
whichever way the elements were moved.
-/

namespace Shared
set_option autoImplicit false

namespace Sorting
variable {α : Type*} [LinearOrder α]

/-- The pointwise order. -/
abbrev Below (xs ys : List α) : Prop := List.Forall₂ (· ≤ ·) xs ys

theorem orderedInsert_of_le {x : α} {xs : List α} (h : ∀ y ∈ xs, x ≤ y) :
    xs.orderedInsert (· ≤ ·) x = x :: xs := by
  cases xs with
  | nil => rfl
  | cons y ys => exact List.orderedInsert_cons_of_le _ _ (h y List.mem_cons_self)

/-- By induction on the lists: where one side has found its place first, the other goes on with
the element it is compared with. -/
theorem insert_below {xs ys : List α} (hxs : xs.Pairwise (· ≤ ·)) (hys : ys.Pairwise (· ≤ ·))
    (h : Below xs ys) {x y : α} (hxy : x ≤ y) :
    Below (xs.orderedInsert (· ≤ ·) x) (ys.orderedInsert (· ≤ ·) y) := by
  induction h generalizing x y with
  | nil => exact .cons hxy .nil
  | @cons a b as bs hab hrest ih =>
    obtain ⟨ha, has⟩ := List.pairwise_cons.mp hxs
    obtain ⟨hb, hbs⟩ := List.pairwise_cons.mp hys
    by_cases hxa : x ≤ a
    · rw [List.orderedInsert_cons_of_le _ _ hxa]
      by_cases hyb : y ≤ b
      · rw [List.orderedInsert_cons_of_le _ _ hyb]
        exact .cons hxy (.cons hab hrest)
      · rw [List.orderedInsert_of_not_le _ _ hyb]
        have hay : a ≤ y := hab.trans (le_of_not_ge hyb)
        have htail := ih has hbs hay
        rw [orderedInsert_of_le ha] at htail
        exact .cons (hxa.trans hab) htail
    · rw [List.orderedInsert_of_not_le _ _ hxa]
      have hax : a ≤ x := le_of_not_ge hxa
      by_cases hyb : y ≤ b
      · rw [List.orderedInsert_cons_of_le _ _ hyb]
        have htail := ih has hbs (hxy.trans hyb)
        rw [orderedInsert_of_le hb] at htail
        exact .cons (hax.trans hxy) htail
      · rw [List.orderedInsert_of_not_le _ _ hyb]
        exact .cons hab (ih has hbs hxy)

theorem sort_below {xs ys : List α} (h : Below xs ys) :
    Below (xs.insertionSort (· ≤ ·)) (ys.insertionSort (· ≤ ·)) := by
  induction h with
  | nil => exact .nil
  | cons hxy _ ih =>
    exact insert_below (List.pairwise_insertionSort _ _) (List.pairwise_insertionSort _ _) ih hxy

theorem sort_eq_of_perm {xs ys : List α} (h : xs.Perm ys) :
    xs.insertionSort (· ≤ ·) = ys.insertionSort (· ≤ ·) := by
  apply List.Perm.eq_of_pairwise' (List.pairwise_insertionSort (· ≤ ·) _)
    (List.pairwise_insertionSort (· ≤ ·) _)
  exact (List.perm_insertionSort _ xs).trans (h.trans (List.perm_insertionSort _ ys).symm)

end Sorting
end Shared
