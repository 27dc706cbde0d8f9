import Mathlib.Data.Nat.ModEq
import Mathlib.Data.Int.CardIntervalMod

/-!
# Cell memories and circular windows

A memory is a total function from addresses to cells, so an operation is
described by the cells it writes and by the cells it leaves alone. The second
half is about addresses taken modulo a capacity: a window of at most `c`
consecutive positions never meets itself.
-/

namespace Shared
set_option autoImplicit false

universe u
variable {α : Type u}

abbrev Memory (α : Type u) := Nat → α

namespace Memory

/-- Copies `n` cells from `src` at `s` to `dst` at `d`. -/
def memcpy (dst : Memory α) (d : Nat) (src : Memory α) (s n : Nat) : Memory α :=
  fun i => if d ≤ i ∧ i < d + n then src (s + (i - d)) else dst i

/-- The `n` cells from address `a` on, as a list. -/
def slice (m : Memory α) (a n : Nat) : List α := (List.range n).map fun i => m (a + i)

/-- Puts the cells `xs` at address `d` and after. -/
def store (m : Memory α) (d : Nat) (xs : List α) : Memory α :=
  fun i => if d ≤ i then (xs[i - d]?).getD (m i) else m i

/-- The memory that holds `xs` from address 0 on. -/
def ofList (fill : α) (xs : List α) : Memory α := fun i => xs.getD i fill

@[simp] theorem slice_length (m : Memory α) (a n : Nat) : (slice m a n).length = n := by
  simp [slice]

@[simp] theorem slice_zero (m : Memory α) (a : Nat) : slice m a 0 = [] := rfl

@[simp] theorem slice_getElem (m : Memory α) (a n i : Nat) (h : i < (slice m a n).length) :
    (slice m a n)[i] = m (a + i) := by
  simp [slice]

theorem slice_eq_iff (m : Memory α) (a : Nat) (xs : List α) :
    slice m a xs.length = xs ↔ ∀ (i : Nat) (h : i < xs.length), m (a + i) = xs[i] := by
  constructor
  · intro h i hi
    have hs := congrArg (fun ys : List α => ys[i]?) h
    simpa [slice, hi] using hs
  · intro h
    apply List.ext_getElem (by simp)
    intro i _ hi
    simpa using h i hi

theorem slice_congr {m m' : Memory α} {a a' n : Nat}
    (h : ∀ i, i < n → m (a + i) = m' (a' + i)) : slice m a n = slice m' a' n := by
  apply List.map_congr_left
  intro i hi
  exact h i (List.mem_range.mp hi)

theorem slice_add (m : Memory α) (a k n : Nat) :
    slice m a (k + n) = slice m a k ++ slice m (a + k) n := by
  simp [slice, List.range_add, Nat.add_assoc, Function.comp_def]

@[simp] theorem slice_ofList (fill : α) (xs : List α) :
    slice (ofList fill xs) 0 xs.length = xs := by
  apply (slice_eq_iff _ _ _).mpr
  intro i hi
  simp [ofList, hi]

theorem memcpy_inside (dst src : Memory α) {d s n i : Nat} (h : i < n) :
    memcpy dst d src s n (d + i) = src (s + i) := by
  have hi : d ≤ d + i ∧ d + i < d + n := by omega
  simp [memcpy, hi]

theorem memcpy_outside (dst src : Memory α) {d s n i : Nat} (h : i < d ∨ d + n ≤ i) :
    memcpy dst d src s n i = dst i := by
  have hi : ¬ (d ≤ i ∧ i < d + n) := by omega
  simp [memcpy, hi]

theorem slice_memcpy_same (dst src : Memory α) (d s n : Nat) :
    slice (memcpy dst d src s n) d n = slice src s n :=
  slice_congr fun _ hi => memcpy_inside dst src hi

/-- Two copies that meet at `d + n` are one copy. -/
theorem memcpy_memcpy (dst src : Memory α) (d s n k : Nat) :
    memcpy (memcpy dst d src s n) (d + n) src (s + n) k = memcpy dst d src s (n + k) := by
  funext i
  by_cases hlow : d ≤ i ∧ i < d + n
  · obtain ⟨j, rfl⟩ := Nat.exists_eq_add_of_le hlow.1
    have hj : j < n := by omega
    rw [memcpy_outside _ _ (by omega), memcpy_inside _ _ hj, memcpy_inside _ _ (by omega)]
  · by_cases hhigh : d + n ≤ i ∧ i < d + n + k
    · obtain ⟨j, rfl⟩ := Nat.exists_eq_add_of_le hhigh.1
      have hj : j < k := by omega
      rw [memcpy_inside _ _ hj, Nat.add_assoc d n j, memcpy_inside _ _ (by omega),
        Nat.add_assoc s n j]
    · rw [memcpy_outside _ _ (by omega), memcpy_outside _ _ (by omega),
        memcpy_outside _ _ (by omega)]

theorem memcpy_congr {src src' : Memory α} {s s' n : Nat} (dst : Memory α) (d : Nat)
    (h : ∀ i, i < n → src (s + i) = src' (s' + i)) :
    memcpy dst d src s n = memcpy dst d src' s' n := by
  funext i
  by_cases hi : d ≤ i ∧ i < d + n
  · obtain ⟨j, rfl⟩ := Nat.exists_eq_add_of_le hi.1
    have hj : j < n := by omega
    rw [memcpy_inside _ _ hj, memcpy_inside _ _ hj, h j hj]
  · rw [memcpy_outside _ _ (by omega), memcpy_outside _ _ (by omega)]

section Store
variable (m : Memory α) (d : Nat)

theorem store_inside (xs : List α) {i : Nat} (h : i < xs.length) :
    store m d xs (d + i) = xs[i] := by
  simp [store, h]

theorem store_outside (xs : List α) {i : Nat} (h : i < d ∨ d + xs.length ≤ i) :
    store m d xs i = m i := by
  unfold store
  split
  · rw [List.getElem?_eq_none (by omega)]
    rfl
  · rfl

@[simp] theorem store_nil : store m d [] = m := by
  funext i
  exact store_outside m d [] (by simp; omega)

theorem memcpy_eq_store (src : Memory α) (s n : Nat) :
    memcpy m d src s n = store m d (slice src s n) := by
  funext i
  by_cases hi : d ≤ i ∧ i < d + n
  · obtain ⟨j, rfl⟩ := Nat.exists_eq_add_of_le hi.1
    have hj : j < n := by omega
    rw [memcpy_inside _ _ hj, store_inside _ _ _ (by simpa using hj), slice_getElem]
  · rw [memcpy_outside _ _ (by omega), store_outside _ _ _ (by simp; omega)]

theorem store_append (xs ys : List α) :
    store m d (xs ++ ys) = store (store m d xs) (d + xs.length) ys := by
  funext i
  rcases Nat.lt_or_ge i d with hlow | hlow
  · rw [store_outside _ _ _ (Or.inl hlow), store_outside _ _ _ (by omega),
      store_outside _ _ _ (Or.inl hlow)]
  · obtain ⟨j, rfl⟩ := Nat.exists_eq_add_of_le hlow
    rcases Nat.lt_or_ge j xs.length with hj | hj
    · rw [store_inside _ _ _ (by simp; omega), store_outside _ _ _ (by omega),
        store_inside _ _ _ hj, List.getElem_append_left hj]
    · obtain ⟨k, rfl⟩ := Nat.exists_eq_add_of_le hj
      rcases Nat.lt_or_ge k ys.length with hk | hk
      · rw [store_inside _ _ _ (by simp; omega), ← Nat.add_assoc d, store_inside _ _ _ hk,
          List.getElem_append_right hj]
        simp
      · rw [store_outside _ _ _ (by simp; omega), store_outside _ _ _ (by omega),
          store_outside _ _ _ (by omega)]

theorem store_one (x : α) : store m d [x] = Function.update m d x := by
  funext i
  by_cases hi : i = d
  · subst hi
    simpa using store_inside m i [x] (i := 0) (by simp)
  · rw [store_outside _ _ _ (by simp; omega), Function.update_of_ne hi]

theorem store_cons (x : α) (xs : List α) :
    store m d (x :: xs) = store (Function.update m d x) (d + 1) xs := by
  rw [← store_one]
  exact store_append m d [x] xs

theorem store_update (xs : List α) {a : Nat} (x : α) (h : a < d ∨ d + xs.length ≤ a) :
    store (Function.update m a x) d xs = Function.update (store m d xs) a x := by
  funext i
  by_cases hi : i = a
  · subst hi
    rw [store_outside _ _ _ h, Function.update_self, Function.update_self]
  · rw [Function.update_of_ne hi]
    unfold store
    rw [Function.update_of_ne hi]

theorem slice_store_same (xs : List α) : slice (store m d xs) d xs.length = xs :=
  (slice_eq_iff _ _ _).mpr fun _ hi => store_inside m d xs hi

end Store
end Memory

/-! Circular windows. -/

namespace Circular

/-- Two positions of one window of length at most `c` share no cell. -/
theorem slot_injective {c a i j : Nat} (hi : a ≤ i ∧ i < a + c) (hj : a ≤ j ∧ j < a + c)
    (h : i % c = j % c) : i = j :=
  Nat.mod_injOn_Ico a c (by simpa using hi) (by simpa using hj) h

theorem slot_ne {c i j : Nat} (hij : i < j) (hc : j < i + c) : i % c ≠ j % c := by
  intro h
  have := slot_injective (a := i) ⟨le_refl i, by omega⟩ ⟨hij.le, hc⟩ h
  omega

theorem slot_add_of_lt {c p k : Nat} (h : p % c + k < c) : (p + k) % c = p % c + k := by
  rw [Nat.add_mod, Nat.mod_eq_of_lt (a := k) (by omega), Nat.mod_eq_of_lt h]

theorem slot_add_of_ge {c p k : Nat} (hk : c ≤ p % c + k) (hlt : p % c + k < c + c) :
    (p + k) % c = p % c + k - c := by
  rw [← Nat.mod_add_mod, Nat.mod_eq_sub_mod hk, Nat.mod_eq_of_lt (by omega)]

/-- Advancing by at most one lap either stays in the lap or enters the next one. -/
theorem lap_add {c p k : Nat} (hk : k ≤ c) (hc : 0 < c) :
    (p + k) / c = p / c + if c ≤ p % c + k then 1 else 0 := by
  have hp := Nat.div_add_mod p c
  have hr := Nat.mod_lt p hc
  split
  · rename_i hcross
    apply Nat.div_eq_of_lt_le
    · rw [Nat.add_mul, Nat.mul_comm]
      omega
    · rw [Nat.add_mul, Nat.add_mul, Nat.mul_comm]
      omega
  · rename_i hstay
    apply Nat.div_eq_of_lt_le
    · rw [Nat.add_zero, Nat.mul_comm]
      omega
    · rw [Nat.add_zero, Nat.add_mul, Nat.mul_comm]
      omega

/-- Where a position at most one lap ahead lies. -/
theorem advance_cases {c p k : Nat} (hk : k ≤ c) (hc : 0 < c) :
    (p % c + k < c ∧ (p + k) / c = p / c ∧ (p + k) % c = p % c + k) ∨
    (c ≤ p % c + k ∧ (p + k) / c = p / c + 1 ∧ (p + k) % c = p % c + k - c) := by
  have hr := Nat.mod_lt p hc
  have hlap := lap_add (p := p) hk hc
  rcases Nat.lt_or_ge (p % c + k) c with hstay | hcross
  · rw [if_neg (by omega)] at hlap
    exact Or.inl ⟨hstay, hlap, slot_add_of_lt hstay⟩
  · rw [if_pos hcross] at hlap
    exact Or.inr ⟨hcross, hlap, slot_add_of_ge hcross (by omega)⟩

/-- The cells of the window of length `n` at position `p`. -/
def load (c : Nat) (m : Memory α) (p n : Nat) : List α :=
  (List.range n).map fun k => m ((p + k) % c)

@[simp] theorem load_length (c : Nat) (m : Memory α) (p n : Nat) : (load c m p n).length = n := by
  simp [load]

theorem load_eq_iff (c : Nat) (m : Memory α) (p : Nat) (xs : List α) :
    load c m p xs.length = xs ↔ ∀ (k : Nat) (h : k < xs.length), m ((p + k) % c) = xs[k] := by
  constructor
  · intro h k hk
    have hs := congrArg (fun ys : List α => ys[k]?) h
    simpa [load, hk] using hs
  · intro h
    apply List.ext_getElem (by simp)
    intro k _ hk
    simpa [load] using h k hk

theorem load_congr {c p n : Nat} {m m' : Memory α}
    (h : ∀ k, k < n → m ((p + k) % c) = m' ((p + k) % c)) : load c m p n = load c m' p n := by
  apply List.map_congr_left
  intro k hk
  exact h k (List.mem_range.mp hk)

theorem load_add (c : Nat) (m : Memory α) (p n k : Nat) :
    load c m p (n + k) = load c m p n ++ load c m (p + n) k := by
  simp [load, List.range_add, Nat.add_assoc, Function.comp_def]

/-- `m'` is `m` after `xs` was written to the window at position `p`. -/
structure Stored (c p : Nat) (xs : List α) (m m' : Memory α) : Prop where
  written : ∀ (k : Nat) (h : k < xs.length), m' ((p + k) % c) = xs[k]
  frame : ∀ i, (∀ k, k < xs.length → (p + k) % c ≠ i) → m' i = m i

theorem stored_memcpy {c p : Nat} (fill : α) (m : Memory α) {xs : List α}
    (h : p % c + xs.length ≤ c) :
    Stored c p xs m (m.memcpy (p % c) (Memory.ofList fill xs) 0 xs.length) := by
  constructor
  · intro k hk
    rw [slot_add_of_lt (by omega), Memory.memcpy_inside _ _ hk]
    simp [Memory.ofList, hk]
  · intro i hi
    apply Memory.memcpy_outside
    by_contra hin
    obtain ⟨k, hk⟩ := Nat.exists_eq_add_of_le (show p % c ≤ i by omega)
    exact hi k (by omega) (by rw [slot_add_of_lt (by omega), hk])

theorem stored_update (c p : Nat) (m : Memory α) (x : α) :
    Stored c p [x] m (Function.update m (p % c) x) := by
  constructor
  · intro k hk
    obtain rfl : k = 0 := by simpa using hk
    simp
  · intro i hi
    exact Function.update_of_ne (fun heq => hi 0 (by simp) heq.symm) _ _

theorem Stored.load_same {c p : Nat} {xs : List α} {m m' : Memory α} (h : Stored c p xs m m') :
    load c m' p xs.length = xs := (load_eq_iff c m' p xs).mpr h.written

/-- A window that ends before `p` and starts less than a lap behind the end of
the written one keeps its cells. -/
theorem Stored.load_disjoint {c p q n : Nat} {xs : List α} {m m' : Memory α}
    (h : Stored c p xs m m') (hq : q + n ≤ p) (hp : p + xs.length ≤ q + c) :
    load c m' q n = load c m q n := by
  apply load_congr
  intro k hk
  apply h.frame
  intro j hj heq
  have hne := slot_ne (c := c) (i := q + k) (j := p + j) (by omega) (by omega)
  exact hne heq.symm

end Circular
end Shared
