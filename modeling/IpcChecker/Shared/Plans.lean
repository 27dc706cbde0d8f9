import IpcChecker.Shared.Runs
import Mathlib.Algebra.BigOperators.Group.Finset.Basic
import Mathlib.Algebra.Order.BigOperators.Group.Finset

/-!
# Processes that work through plans

Every process has a list of actions to do in their order. An action may need others
to be done before, by whichever process. Where the actions have a rank that grows
along every plan, and each needs actions of smaller rank only, the processes cannot
come to wait for each other.
-/

namespace Shared
set_option autoImplicit false

universe u v

/-- What each process still has to do. -/
abbrev Plans (ι : Type u) (α : Type v) : Type (max u v) := ι → List α

namespace Plans
variable {ι : Type u} {α : Type v}

/-- No process has the action still to do. -/
def Gone (s : Plans ι α) (a : α) : Prop := ∀ i, a ∉ s i

/-- Nothing is left to do. -/
def Finished (s : Plans ι α) : Prop := ∀ i, s i = []

/-- The rank never goes down along a plan. -/
def Ordered (rank : α → Nat) (s : Plans ι α) : Prop :=
  ∀ i, (s i).Pairwise fun a b => rank a ≤ rank b

/-- Every action is to be done once, by its owner. -/
structure Separate (owner : α → ι) (s : Plans ι α) : Prop where
  once : ∀ i, (s i).Nodup
  owned : ∀ {i a}, a ∈ s i → owner a = i

section Order
variable {owner : α → ι} {rank : α → Nat} {s t : Plans ι α}

theorem Separate.sublist (hs : Separate owner s) (h : ∀ i, (t i).Sublist (s i)) :
    Separate owner t where
  once i := (hs.once i).sublist (h i)
  owned hmem := hs.owned ((h _).subset hmem)

theorem Separate.gone (hs : Separate owner s) {a : α} (h : a ∉ s (owner a)) : s.Gone a :=
  fun _ hmem => h (hs.owned hmem ▸ hmem)

theorem Ordered.sublist (hs : Ordered rank s) (h : ∀ i, (t i).Sublist (s i)) : Ordered rank t :=
  fun i => (hs i).sublist (h i)

end Order

/-- The actions that a process has done. -/
def done [DecidableEq ι] (i : ι) (es : List (ι × α)) : List α :=
  (es.filter fun e => e.1 = i).map Prod.snd

section Steps
variable [DecidableEq ι] {needs : α → α → Prop}

/-- A process does its next action once nobody has an action still to do that it needs. -/
def Steps (needs : α → α → Prop) (s : Plans ι α) (e : ι × α) (t : Plans ι α) : Prop :=
  ∃ rest, s e.1 = e.2 :: rest ∧ (∀ b, needs e.2 b → s.Gone b) ∧ t = Function.update s e.1 rest

variable {s t : Plans ι α} {e : ι × α}

theorem Steps.plan (h : Steps needs s e t) : s e.1 = e.2 :: t e.1 := by
  obtain ⟨rest, hplan, _, rfl⟩ := h
  rw [Function.update_self]
  exact hplan

theorem Steps.other (h : Steps needs s e t) {i : ι} (hi : i ≠ e.1) : t i = s i := by
  obtain ⟨rest, _, _, rfl⟩ := h
  exact Function.update_of_ne hi rest s

/-- A step takes one action off the front of one plan. -/
theorem Steps.suffix (h : Steps needs s e t) (i : ι) : t i <:+ s i := by
  by_cases hi : i = e.1
  · subst hi
    rw [h.plan]
    exact List.suffix_cons _ _
  · rw [h.other hi]

/-- The other actions stay. -/
theorem Steps.mem_of_ne (h : Steps needs s e t) {i : ι} {a : α} (hmem : a ∈ s i) (hne : a ≠ e.2) :
    a ∈ t i := by
  by_cases hi : i = e.1
  · subst hi
    rw [h.plan] at hmem
    exact (List.mem_cons.mp hmem).resolve_left hne
  · rw [h.other hi]
    exact hmem

theorem Steps.gone_iff {owner : α → ι} (h : Steps needs s e t) (hs : Separate owner s) {a : α} :
    t.Gone a ↔ s.Gone a ∨ a = e.2 := by
  constructor
  · intro hgone
    by_cases ha : a = e.2
    · exact .inr ha
    · exact .inl fun i hmem => hgone i (h.mem_of_ne hmem ha)
  · rintro (hgone | rfl) i hmem
    · exact hgone i ((h.suffix i).subset hmem)
    · have hfirst : e.2 ∈ s e.1 := by
        rw [h.plan]
        exact List.mem_cons_self
      have hsame : i = e.1 := (hs.owned ((h.suffix i).subset hmem)).symm.trans (hs.owned hfirst)
      subst hsame
      have honce := hs.once e.1
      rw [h.plan] at honce
      exact (List.nodup_cons.mp honce).1 hmem

variable {rank : α → Nat}

/-- As long as a process has something to do, some process can do something. -/
theorem Ordered.exists_step (hs : Ordered rank s) (hrank : ∀ a b, needs a b → rank b < rank a)
    {i : ι} {a : α} {rest : List α} (hplan : s i = a :: rest) : ∃ e t, Steps needs s e t := by
  -- A process that waits is waiting for one whose next action has a smaller rank.
  induction hn : rank a using Nat.strong_induction_on generalizing i a rest with
  | _ n ih =>
    by_cases hready : ∀ b, needs a b → s.Gone b
    · exact ⟨(i, a), _, rest, hplan, hready, rfl⟩
    · push Not at hready
      obtain ⟨b, hneeds, hnot⟩ := hready
      unfold Gone at hnot
      push Not at hnot
      obtain ⟨j, hmem⟩ := hnot
      have hless := hrank a b hneeds
      cases hother : s j with
      | nil =>
        rw [hother] at hmem
        cases hmem
      | cons c rest' =>
        have horder := hs j
        rw [hother] at hmem horder
        have hle : rank c ≤ rank b := by
          rcases List.mem_cons.mp hmem with rfl | hlater
          · exact le_rfl
          · exact (List.pairwise_cons.mp horder).1 b hlater
        exact ih (rank c) (by omega) hother rfl

theorem Steps.length_lt [Fintype ι] (h : Steps needs s e t) :
    ∑ i, (t i).length < ∑ i, (s i).length := by
  apply Finset.sum_lt_sum
  · exact fun i _ => (h.suffix i).length_le
  · refine ⟨e.1, Finset.mem_univ _, ?_⟩
    rw [h.plan]
    exact Nat.lt_succ_self _

theorem Ordered.completes [Fintype ι] (hs : Ordered rank s)
    (hrank : ∀ a b, needs a b → rank b < rank a) :
    ∃ es t, Run (Steps needs) s es t ∧ t.Finished := by
  induction hn : ∑ i, (s i).length using Nat.strong_induction_on generalizing s with
  | _ n ih =>
    by_cases hfinished : s.Finished
    · exact ⟨[], s, .start, hfinished⟩
    · unfold Finished at hfinished
      push Not at hfinished
      obtain ⟨i, hne⟩ := hfinished
      obtain ⟨a, rest, hplan⟩ := List.exists_cons_of_ne_nil hne
      obtain ⟨e, t, hstep⟩ := hs.exists_step hrank hplan
      obtain ⟨es, u, hrun, hend⟩ := ih _ (hn ▸ hstep.length_lt)
        (hs.sublist fun i => (hstep.suffix i).sublist) rfl
      exact ⟨e :: es, u, Run.cons hstep hrun, hend⟩

/-- What a process has done, and then what it still has to do, is its plan. -/
theorem done_append {es : List (ι × α)} (h : Run (Steps needs) s es t) (i : ι) :
    done i es ++ t i = s i := by
  induction h with
  | start => rfl
  | @step es e _ _ _ hstep ih =>
    rw [← ih]
    unfold done
    rw [List.filter_append, List.map_append, List.append_assoc]
    apply congrArg (_ ++ ·)
    by_cases hi : e.1 = i
    · subst hi
      rw [hstep.plan, List.filter_singleton, decide_eq_true rfl]
      rfl
    · rw [hstep.other (Ne.symm hi), List.filter_singleton, decide_eq_false hi]
      rfl

end Steps
end Plans
end Shared
