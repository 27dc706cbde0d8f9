import Mathlib.Data.List.Induction

/-!
# Order of events in a trace

One kind of event precedes another when the `k`-th of the second kind always
comes after the `k`-th of the first.
-/

namespace Shared
set_option autoImplicit false

universe u v
variable {ε : Type u} {p q r : ε → Bool} {events : List ε}

def Precedes (p q : ε → Bool) (events : List ε) : Prop :=
  ∀ (es : List ε) (e : ε), es ++ [e] <+: events → q e = true → es.countP q < es.countP p

namespace Precedes

theorem nil : Precedes p q [] := by
  intro es e hpre _
  have hlength := hpre.length_le
  rw [List.length_append] at hlength
  simp at hlength

theorem of_append {e : ε} (h : Precedes p q (events ++ [e])) : Precedes p q events :=
  fun es e' hpre => h es e' (hpre.trans (List.prefix_append _ _))

theorem append {e : ε} (h : Precedes p q events)
    (hlast : q e = true → events.countP q < events.countP p) : Precedes p q (events ++ [e]) := by
  intro es e' hpre hq
  rcases List.prefix_concat_iff.mp hpre with hwhole | hshorter
  · obtain ⟨rfl, heq⟩ := List.append_inj' hwhole rfl
    cases heq
    exact hlast hq
  · exact h es e' hshorter hq

theorem count_le (h : Precedes p q events) : events.countP q ≤ events.countP p := by
  induction events using List.reverseRecOn with
  | nil => exact Nat.le_refl 0
  | append_singleton es e ih =>
    have hbefore := ih h.of_append
    have hlast := h es e (List.prefix_refl _)
    rw [List.countP_append, List.countP_append, List.countP_singleton, List.countP_singleton]
    cases hq : q e with
    | true =>
      have hlt := hlast hq
      rw [if_pos rfl]
      omega
    | false =>
      rw [if_neg Bool.false_ne_true]
      omega

theorem trans (hpq : Precedes p q events) (hqr : Precedes q r events) : Precedes p r events := by
  intro es e hpre hr
  have hes : Precedes p q es := fun es' e' hpre' =>
    hpq es' e' (hpre'.trans ((List.prefix_append _ _).trans hpre))
  exact Nat.lt_of_lt_of_le (hqr es e hpre hr) hes.count_le

/-- Values read at the two kinds of events compare when reads never go down. -/
theorem readings_le {τ : Type v} [LE τ] {f g : ε → Option τ}
    (h : Precedes (fun e => (f e).isSome) (fun e => (g e).isSome) events)
    (hmono : events.Pairwise fun e e' => ∀ a, f e = some a → ∀ b, g e' = some b → a ≤ b)
    {i : Nat} {a b : τ} (ha : (events.filterMap f)[i]? = some a)
    (hb : (events.filterMap g)[i]? = some b) : a ≤ b := by
  induction events using List.reverseRecOn with
  | nil => cases ha
  | append_singleton es e ih =>
    obtain ⟨hpairs, _, hcross⟩ := List.pairwise_append.mp hmono
    rw [List.filterMap_append] at ha hb
    have hcount := h.of_append.count_le
    have hlast := h es e (List.prefix_refl _)
    rw [← List.length_filterMap_eq_countP, ← List.length_filterMap_eq_countP] at hcount hlast
    rcases Nat.lt_or_ge i (es.filterMap g).length with hold | hnew
    · rw [List.getElem?_append_left hold] at hb
      rw [List.getElem?_append_left (by omega)] at ha
      exact ih h.of_append hpairs ha hb
    · rw [List.getElem?_append_right hnew] at hb
      obtain ⟨hlt, _⟩ := List.getElem?_eq_some_iff.mp hb
      obtain ⟨e', he', hge⟩ := List.mem_filterMap.mp (List.mem_of_getElem? hb)
      rw [List.mem_singleton.mp he'] at hge
      have hone : ([e].filterMap g).length = 1 := by simp [hge]
      have hmore := hlast (Option.isSome_iff_exists.mpr ⟨b, hge⟩)
      rw [List.getElem?_append_left (by omega)] at ha
      obtain ⟨x, hx, hfx⟩ := List.mem_filterMap.mp (List.mem_of_getElem? ha)
      exact hcross x hx e List.mem_cons_self a hfx b hge

end Precedes
end Shared
