import Mathlib.Data.List.Count
import Mathlib.Data.List.Perm.Basic

/-!
# Ledgers of tokens

Tokens are issued in order, each is held by somebody and is returned once. A ledger
is balanced when every issued token is either held or returned, and in one way only.
-/

namespace Shared
set_option autoImplicit false

/-- `held` has an entry for each holding, `returned` for each return. -/
structure Ledger where
  issued : Nat
  returned : List Nat
  held : List Nat

namespace Ledger

def Balanced (l : Ledger) : Prop :=
  ∀ t, l.returned.count t + l.held.count t = if t < l.issued then 1 else 0

namespace Balanced
variable {issued t : Nat} {returned held held' : List Nat}

theorem perm (h : Balanced ⟨issued, returned, held⟩) (hp : held.Perm held') :
    Balanced ⟨issued, returned, held'⟩ := by
  intro u
  have hu := h u
  simp only [hp.count_eq] at hu
  exact hu

theorem issue (h : Balanced ⟨issued, returned, held⟩) :
    Balanced ⟨issued + 1, returned, issued :: held⟩ := by
  intro u
  have hu := h u
  simp only [List.count_cons] at hu ⊢
  by_cases hne : issued = u
  · subst hne
    simp at hu ⊢
    omega
  · simp [hne]
    split at hu <;> split <;> omega

theorem giveBack {ts : List Nat} (h : Balanced ⟨issued, returned, ts ++ held⟩) :
    Balanced ⟨issued, returned ++ ts, held⟩ := by
  intro u
  have hu := h u
  simp only [List.count_append] at hu ⊢
  omega

theorem fresh (h : Balanced ⟨issued, returned, held⟩) (hle : issued ≤ t) :
    t ∉ returned ∧ t ∉ held := by
  have ht := h t
  simp only [if_neg (Nat.not_lt.mpr hle)] at ht
  exact ⟨List.count_eq_zero.mp (by omega), List.count_eq_zero.mp (by omega)⟩

theorem held_lt (h : Balanced ⟨issued, returned, held⟩) (hmem : t ∈ held) : t < issued := by
  have ht := h t
  have hpos := List.count_pos_iff.mpr hmem
  simp only at ht
  split at ht
  · assumption
  · omega

theorem held_once (h : Balanced ⟨issued, returned, t :: held⟩) : t ∉ returned ∧ t ∉ held := by
  have ht := h t
  have hlt := h.held_lt List.mem_cons_self
  simp only [if_pos hlt, List.count_cons_self] at ht
  exact ⟨List.count_eq_zero.mp (by omega), List.count_eq_zero.mp (by omega)⟩

theorem returned_le (h : Balanced ⟨issued, returned, held⟩) (t : Nat) :
    returned.count t ≤ 1 := by
  have ht := h t
  simp only at ht
  split at ht
  · omega
  · omega

theorem returned_once (h : Balanced ⟨issued, returned, held⟩) (hlt : t < issued)
    (hmem : t ∉ held) : returned.count t = 1 := by
  have ht := h t
  simp only [if_pos hlt, List.count_eq_zero.mpr hmem] at ht
  omega

end Balanced

/-- A token is lost that nobody holds and nobody has returned. -/
theorem not_balanced_of_lost {l : Ledger} {t : Nat} (hlt : t < l.issued) (hr : t ∉ l.returned)
    (hh : t ∉ l.held) : ¬ l.Balanced := by
  intro h
  have ht := h t
  rw [if_pos hlt, List.count_eq_zero.mpr hr, List.count_eq_zero.mpr hh] at ht
  cases ht

end Ledger
end Shared
