import IpcChecker.Shared.Runs
import Mathlib.Data.List.Perm.Basic

/-!
# Systems whose steps commute

Two different steps of one state can be taken in either order, with the same result.
Then one run to an end speaks for all of them: every other run can be completed to
that end, and what it took in all is a rearrangement of the steps of the first.
-/

namespace Shared
set_option autoImplicit false

universe u v
variable {σ : Type u} {ε : Type v} {Step : σ → ε → σ → Prop}

def Commuting (Step : σ → ε → σ → Prop) : Prop :=
  ∀ {s e t f u}, Step s e t → Step s f u → (e = f ∧ t = u) ∨ ∃ v, Step t f v ∧ Step u e v

/-- No step is left. -/
def Ended (Step : σ → ε → σ → Prop) (s : σ) : Prop := ∀ e t, ¬ Step s e t

namespace Commuting
variable {s t u : σ} {es fs : List ε}

/-- A step that is possible now can be taken first in a run to an end. -/
theorem first (hcomm : Commuting Step) (hend : Ended Step t) {f : ε} (hf : Step s f u)
    (h : Run Step s es t) : ∃ gs, Run Step u gs t ∧ (f :: gs).Perm es := by
  induction es generalizing s u with
  | nil =>
    obtain rfl := Run.eq_of_nil h
    exact absurd hf (hend f u)
  | cons e es ih =>
    obtain ⟨v, hv, hrest⟩ := Run.uncons h
    rcases hcomm hv hf with ⟨rfl, rfl⟩ | ⟨w, hvw, huw⟩
    · exact ⟨es, hrest, List.Perm.refl _⟩
    · obtain ⟨gs, hgs, hperm⟩ := ih hvw hrest
      refine ⟨e :: gs, Run.cons huw hgs, ?_⟩
      exact (List.Perm.swap e f gs).trans (hperm.cons e)

/-- Every run can be completed to an end that one run reaches. -/
theorem completes (hcomm : Commuting Step) (hend : Ended Step t) (h : Run Step s es t)
    (hf : Run Step s fs u) : ∃ gs, Run Step u gs t ∧ (fs ++ gs).Perm es := by
  induction fs generalizing s es with
  | nil =>
    obtain rfl := Run.eq_of_nil hf
    exact ⟨es, h, List.Perm.refl _⟩
  | cons f fs ih =>
    obtain ⟨v, hv, hrest⟩ := Run.uncons hf
    obtain ⟨gs, hgs, hperm⟩ := hcomm.first hend hv h
    obtain ⟨rest, hcomplete, hperm'⟩ := ih hgs hrest
    exact ⟨rest, hcomplete, (hperm'.cons f).trans hperm⟩

/-- A run that cannot go on has taken the same steps to the same end. -/
theorem same_end (hcomm : Commuting Step) (hend : Ended Step t) (h : Run Step s es t)
    (hf : Run Step s fs u) (hend' : Ended Step u) : u = t ∧ fs.Perm es := by
  obtain ⟨gs, hgs, hperm⟩ := hcomm.completes hend h hf
  cases gs with
  | nil =>
    rw [List.append_nil] at hperm
    exact ⟨(Run.eq_of_nil hgs).symm, hperm⟩
  | cons g gs =>
    obtain ⟨v, hv, _⟩ := Run.uncons hgs
    exact absurd hv (hend' g v)

end Commuting
end Shared
