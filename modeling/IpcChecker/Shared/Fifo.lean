import IpcChecker.Shared.Runs
import Mathlib.Algebra.Order.BigOperators.Group.List
import Mathlib.Algebra.Order.Ring.Nat

/-!
# Bounded first-in first-out queues

A queue of weighted elements under a capacity. Its runs conserve what goes
through them: the elements taken out, followed by those still inside, are the
elements put in.
-/

namespace Shared.Fifo
set_option autoImplicit false

universe u
variable {α : Type u}

inductive Label (α : Type u) where
  | push (a : α)
  | pop (a : α)

variable (weight : α → Nat) (capacity : Nat)

/-- The room taken by the queued elements. -/
def load (q : List α) : Nat := (q.map weight).sum

inductive Step : List α → Label α → List α → Prop where
  | push {q : List α} {a : α} : load weight q + weight a ≤ capacity → Step q (.push a) (q ++ [a])
  | pop {q : List α} {a : α} : Step (a :: q) (.pop a) q

def pushed (ls : List (Label α)) : List α :=
  ls.filterMap fun | .push a => some a | .pop _ => none

def popped (ls : List (Label α)) : List α :=
  ls.filterMap fun | .push _ => none | .pop a => some a

@[simp] theorem load_nil : load weight ([] : List α) = 0 := rfl

@[simp] theorem load_cons (a : α) (q : List α) :
    load weight (a :: q) = weight a + load weight q := by
  simp [load]

@[simp] theorem load_append (q r : List α) :
    load weight (q ++ r) = load weight q + load weight r := by
  simp [load]

/-- Nothing is lost, duplicated or reordered. -/
theorem conservation {ls : List (Label α)} {q : List α}
    (h : Run (Step weight capacity) [] ls q) : pushed ls = popped ls ++ q := by
  apply h.invariant_history (I := fun ls q => pushed ls = popped ls ++ q) rfl
  intro es t e u ih hs
  cases hs with
  | push _ => simp_all [pushed, popped]
  | pop => simp_all [pushed, popped]

theorem popped_getElem? {ls : List (Label α)} {q : List α}
    (h : Run (Step weight capacity) [] ls q) {n : Nat} {a : α}
    (hn : (popped ls)[n]? = some a) : (pushed ls)[n]? = some a := by
  rw [conservation weight capacity h]
  obtain ⟨hlt, _⟩ := List.getElem?_eq_some_iff.mp hn
  rwa [List.getElem?_append_left hlt]

end Shared.Fifo
