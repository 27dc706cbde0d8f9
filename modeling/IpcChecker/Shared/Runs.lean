import Mathlib.Data.List.Basic
import Mathlib.Data.List.Induction

/-!
# Runs of labelled systems and of input-driven machines

A labelled system is a relation `Step s e t`; a machine answers every input with
an output. Both come with the rule that an initial, step-preserved assertion
about the history and the state holds after every run.
-/

namespace Shared
set_option autoImplicit false

universe u v w x
variable {σ : Type u} {ε : Type v}

/-- Runs of a labelled step relation, the last step outermost. -/
inductive Run (Step : σ → ε → σ → Prop) (s : σ) : List ε → σ → Prop where
  | start : Run Step s [] s
  | step {es : List ε} {e : ε} {t u : σ} : Run Step s es t → Step t e u → Run Step s (es ++ [e]) u

namespace Run
variable {Step : σ → ε → σ → Prop} {s t : σ} {es : List ε}

theorem single {e : ε} (h : Step s e t) : Run Step s [e] t := .step .start h

theorem eq_of_nil (h : Run Step s [] t) : t = s := by
  generalize hall : ([] : List ε) = labels at h
  cases h with
  | start => rfl
  | step => simp at hall

theorem of_append_singleton {e : ε} (h : Run Step s (es ++ [e]) t) :
    ∃ u, Run Step s es u ∧ Step u e t := by
  generalize hall : es ++ [e] = labels at h
  cases h with
  | start => simp at hall
  | step hbefore hlast =>
    obtain ⟨rfl, heq⟩ := List.append_inj' hall rfl
    cases heq
    exact ⟨_, hbefore, hlast⟩

theorem step_of_single {e : ε} (h : Run Step s [e] t) : Step s e t := by
  have hlabels : Run Step s ([] ++ [e]) t := h
  obtain ⟨u, hbefore, hlast⟩ := of_append_singleton hlabels
  rwa [eq_of_nil hbefore] at hlast

theorem invariant {I : σ → Prop} (h0 : I s) (hstep : ∀ t e u, I t → Step t e u → I u)
    (h : Run Step s es t) : I t := by
  induction h with
  | start => exact h0
  | step _ hs ih => exact hstep _ _ _ ih hs

/-- The rule for assertions that also speak of the labels seen so far. -/
theorem invariant_history {I : List ε → σ → Prop} (h0 : I [] s)
    (hstep : ∀ es t e u, I es t → Step t e u → I (es ++ [e]) u)
    (h : Run Step s es t) : I es t := by
  induction h with
  | start => exact h0
  | step _ hs ih => exact hstep _ _ _ _ ih hs

theorem trans {fs : List ε} {u : σ} (h : Run Step s es t) (h' : Run Step t fs u) :
    Run Step s (es ++ fs) u := by
  induction h' with
  | start => simpa using h
  | step _ hs ih =>
    rw [← List.append_assoc]
    exact .step ih hs

theorem cons {e : ε} {u : σ} (h : Step s e t) (h' : Run Step t es u) : Run Step s (e :: es) u :=
  (single h).trans h'

/-- A run can be stopped after any of its steps. -/
theorem split {es fs : List ε} {u : σ} (h : Run Step s (es ++ fs) u) :
    ∃ t, Run Step s es t ∧ Run Step t fs u := by
  induction fs using List.reverseRecOn generalizing u with
  | nil =>
    rw [List.append_nil] at h
    exact ⟨u, h, .start⟩
  | append_singleton fs f ih =>
    rw [← List.append_assoc] at h
    obtain ⟨v, hbefore, hlast⟩ := of_append_singleton h
    obtain ⟨t, hes, hfs⟩ := ih hbefore
    exact ⟨t, hes, .step hfs hlast⟩

theorem uncons {e : ε} {u : σ} (h : Run Step s (e :: es) u) :
    ∃ t, Step s e t ∧ Run Step t es u := by
  have hlabels : Run Step s ([e] ++ es) u := h
  obtain ⟨t, hfirst, hrest⟩ := split hlabels
  exact ⟨t, step_of_single hfirst, hrest⟩

/-- A deterministic system has one run to an end. -/
theorem unique (hdet : ∀ s e t f u, Step s e t → Step s f u → e = f ∧ t = u) :
    ∀ {es fs : List ε} {s t u : σ}, Run Step s es t → (∀ e v, ¬ Step t e v) →
      Run Step s fs u → (∀ e v, ¬ Step u e v) → es = fs ∧ t = u
  | [], [], s, t, u, h, _, h', _ => ⟨rfl, (eq_of_nil h).trans (eq_of_nil h').symm⟩
  | [], f :: fs, s, t, u, h, hend, h', _ => by
    obtain ⟨v, hstep, _⟩ := uncons h'
    obtain rfl := eq_of_nil h
    exact absurd hstep (hend f v)
  | e :: es, [], s, t, u, h, _, h', hend => by
    obtain ⟨v, hstep, _⟩ := uncons h
    obtain rfl := eq_of_nil h'
    exact absurd hstep (hend e v)
  | e :: es, f :: fs, s, t, u, h, hend, h', hend' => by
    obtain ⟨v, hstep, hrest⟩ := uncons h
    obtain ⟨w, hstep', hrest'⟩ := uncons h'
    obtain ⟨rfl, rfl⟩ := hdet _ _ _ _ _ hstep hstep'
    obtain ⟨rfl, rfl⟩ := unique hdet hrest hend hrest' hend'
    exact ⟨rfl, rfl⟩

/-- A system that can follow every step of another can follow its runs. -/
theorem simulate {τ : Type w} {ζ : Type x} {Step' : τ → ζ → τ → Prop} {R : σ → τ → Prop}
    (label : ε → ζ) (hstep : ∀ {s e t a}, Step s e t → R s a → ∃ b, Step' a (label e) b ∧ R t b)
    (h : Run Step s es t) {a : τ} (hR : R s a) : ∃ b, Run Step' a (es.map label) b ∧ R t b := by
  induction h with
  | start => exact ⟨a, .start, hR⟩
  | @step es e _ _ _ hs ih =>
    obtain ⟨b, hrun, hb⟩ := ih
    obtain ⟨c, hc, hR'⟩ := hstep hs hb
    rw [List.map_append]
    exact ⟨c, .step hrun hc, hR'⟩

theorem of_foldlM {step : σ → ε → Option σ} : ∀ {es : List ε} {s t : σ},
    es.foldlM step s = some t → Run (fun s e t => step s e = some t) s es t
  | [], s, t, h => by
    obtain rfl := Option.some.inj h
    exact .start
  | e :: es, s, t, h => by
    rw [List.foldlM_cons] at h
    obtain ⟨u, hstep, hrest⟩ := Option.bind_eq_some_iff.mp h
    exact cons hstep (of_foldlM hrest)

end Run

namespace Machine
variable {ι : Type v} {ο : Type w} (step : σ → ι → σ × ο)

/-- The final state of a run and the list of its inputs with their outputs. -/
def run : σ → List ι → σ × List (ι × ο)
  | s, [] => (s, [])
  | s, i :: is =>
    let (t, o) := step s i
    let (u, trace) := run t is
    (u, (i, o) :: trace)

@[simp] theorem run_nil (s : σ) : run step s [] = (s, []) := rfl

theorem run_cons (s : σ) (i : ι) (is : List ι) :
    run step s (i :: is) =
      ((run step (step s i).1 is).1, (i, (step s i).2) :: (run step (step s i).1 is).2) := rfl

theorem run_append (is js : List ι) (s : σ) :
    (run step s (is ++ js)).1 = (run step (run step s is).1 js).1 := by
  induction is generalizing s with
  | nil => rfl
  | cons i is ih =>
    rw [List.cons_append, run_cons, run_cons]
    exact ih _

theorem run_inputs (is : List ι) (s : σ) : (run step s is).2.map Prod.fst = is := by
  induction is generalizing s with
  | nil => rfl
  | cons i is ih =>
    rw [run_cons, List.map_cons, ih]

theorem run_invariant_history {I : List (ι × ο) → σ → Prop}
    (hstep : ∀ h s i, I h s → I (h ++ [(i, (step s i).2)]) (step s i).1)
    (is : List ι) : ∀ (h : List (ι × ο)) (s : σ), I h s →
      I (h ++ (run step s is).2) (run step s is).1 := by
  induction is with
  | nil =>
    intro h s hI
    simpa using hI
  | cons i is ih =>
    intro h s hI
    have hnext := ih _ _ (hstep h s i hI)
    simpa [run_cons, List.append_assoc] using hnext

/-- Inputs whose outputs satisfy `idle` leave the state alone, so dropping them
changes neither the final state nor the remaining outputs. -/
theorem run_drop_idle {idle : ο → Prop} [DecidablePred idle] {I : σ → Prop}
    (hidle : ∀ s i, I s → idle (step s i).2 → (step s i).1 = s)
    (hstep : ∀ s i, I s → I (step s i).1) (is : List ι) : ∀ s : σ, I s →
      run step s (((run step s is).2.filter fun io => ¬ idle io.2).map Prod.fst) =
        ((run step s is).1, (run step s is).2.filter fun io => ¬ idle io.2) := by
  induction is with
  | nil =>
    intro s _
    rfl
  | cons i is ih =>
    intro s hs
    rw [run_cons]
    by_cases hi : idle (step s i).2
    · have hsame := hidle s i hs hi
      have hrest := ih s hs
      simp only [hsame, List.filter_cons, hi, not_true_eq_false, decide_false, Bool.false_eq_true,
        if_false]
      exact hrest
    · have hrest := ih _ (hstep s i hs)
      simp only [List.filter_cons, hi, not_false_eq_true, decide_true, if_true, List.map_cons,
        run_cons, hrest]

end Machine
end Shared
