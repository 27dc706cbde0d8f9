import IpcChecker.Arguments

/-!
# The counter of required options

All that a call of `ParseArgument` can do, and what the counter and the flags say
after any sequence of calls, failed ones included.
-/

namespace IpcChecker.CommandLine
open Shared
set_option autoImplicit false

/-- Some call for the key did not fail. -/
def accepted (history : List (Call × Option Failure)) (key : Int) : Bool :=
  history.any fun e => e.1.key = key && e.2.isNone

theorem accepted_iff {history : List (Call × Option Failure)} {key : Int} :
    accepted history key = true ↔ ∃ c, c.key = key ∧ (c, none) ∈ history := by
  unfold accepted
  rw [List.any_eq_true]
  constructor
  · rintro ⟨⟨c, failure⟩, hmem, htrue⟩
    obtain ⟨hkey, hnone⟩ := Bool.and_eq_true_iff.mp htrue
    rw [Option.isNone_iff_eq_none] at hnone
    cases hnone
    exact ⟨c, of_decide_eq_true hkey, hmem⟩
  · rintro ⟨c, hkey, hmem⟩
    exact ⟨(c, none), hmem, Bool.and_eq_true_iff.mpr ⟨decide_eq_true hkey, rfl⟩⟩

theorem accepted_append_ok (history : List (Call × Option Failure)) (c : Call) (key : Int) :
    accepted (history ++ [(c, none)]) key = (accepted history key || decide (c.key = key)) := by
  simp [accepted]

theorem accepted_append_error (history : List (Call × Option Failure)) (c : Call) (e : Failure)
    (key : Int) : accepted (history ++ [(c, some e)]) key = accepted history key := by
  simp [accepted]

section Counting
variable {F : Type} {items : List (Item F)}

/-- Of the items with distinct keys one drops out of the count with its key. -/
theorem countP_drop_key {P : Item F → Bool} (hnodup : (items.map Item.key).Nodup) {item : Item F}
    (hmem : item ∈ items) (hP : P item = true) :
    items.countP (fun i => P i && !decide (item.key = i.key)) + 1 = items.countP P := by
  induction items with
  | nil => cases hmem
  | cons first rest ih =>
    obtain ⟨hfirst, hrest⟩ := List.nodup_cons.mp hnodup
    rcases List.mem_cons.mp hmem with rfl | hlater
    · have hsame : rest.countP (fun i => P i && !decide (item.key = i.key)) = rest.countP P := by
        apply List.countP_congr
        intro i hi
        have hne : item.key ≠ i.key := fun heq => hfirst (heq ▸ List.mem_map_of_mem hi)
        simp [hne]
      rw [List.countP_cons_of_neg (by simp), List.countP_cons_of_pos hP, hsame]
    · have hne : item.key ≠ first.key := fun heq => hfirst (heq ▸ List.mem_map_of_mem hlater)
      have hih := ih hrest hlater
      rw [List.countP_cons, List.countP_cons]
      simp only [hne, decide_false, Bool.not_false, Bool.and_true]
      omega

end Counting

namespace Arguments
variable {F : Type}

theorem foldl_add (items : List (Item F)) : ∀ a : Arguments F,
    ((a.items.items ++ items).map Item.key).Nodup →
      (items.foldl add a).items.items = a.items.items ++ items ∧
        (items.foldl add a).requredItemsCount =
          a.requredItemsCount + items.countP fun i => i.required := by
  induction items with
  | nil =>
    intro a _
    simp
  | cons item rest ih =>
    intro a hnodup
    have hfresh : item.key ∉ a.items.items.map Item.key := by
      rw [List.map_append, List.map_cons] at hnodup
      intro hmem
      exact (List.nodup_append.mp hnodup).2.2 _ hmem _ List.mem_cons_self rfl
    have hitems : (a.add item).items.items = a.items.items ++ [item] := by
      unfold add ItemMap.emplace
      rw [dif_neg hfresh]
    have hnodup' : (((a.add item).items.items ++ rest).map Item.key).Nodup := by
      rw [hitems, List.append_assoc, List.singleton_append]
      exact hnodup
    obtain ⟨hall, hcount⟩ := ih (a.add item) hnodup'
    rw [List.foldl_cons]
    refine ⟨?_, ?_⟩
    · rw [hall, hitems, List.append_assoc, List.singleton_append]
    · rw [hcount, List.countP_cons]
      unfold add
      cases item.required with
      | true => simp; omega
      | false => simp

theorem new_items {items : List (Item F)} (hnodup : (items.map Item.key).Nodup) :
    (new items).items.items = items ∧
      (new items).requredItemsCount = items.countP fun i => i.required := by
  obtain ⟨hitems, hcount⟩ := foldl_add items ⟨0, ItemMap.empty⟩ hnodup
  refine ⟨hitems, ?_⟩
  rw [Int.zero_add] at hcount
  exact hcount

end Arguments

section Calls
variable {F : Type} {d : Derived F} {c : Call} {item : Item F}

theorem call_unknown (h : d.items.find c.key = none) : d.call c = (d, some .assertion) := by
  unfold Derived.call Derived.parseArgument
  rw [run_get_bind, h]
  rfl

/-- A parser that throws leaves what it did to the fields, and nothing else. -/
theorem call_throws (h : d.items.find c.key = some item) {e : Failure} {fields : F}
    (hrun : (item.parser c.value).run d.fields = .error e fields) :
    d.call c = ({ d with fields := fields }, some e) := by
  have hfields : (Derived.onFields (item.parser c.value)).run d =
      .error e { d with fields := fields } := by
    rw [Derived.onFields_run, hrun]
  unfold Derived.call Derived.parseArgument
  rw [run_get_bind, h]
  simp only
  rw [run_bind_error hfields]

theorem call_returns (h : d.items.find c.key = some item) {fields : F}
    (hrun : (item.parser c.value).run d.fields = .ok () fields) :
    d.call c =
      ({ requredItemsCount :=
          if item.required && !item.parsed then d.requredItemsCount - 1 else d.requredItemsCount,
         items := d.items.markParsed c.key, fields := fields }, none) := by
  have hfields : (Derived.onFields (item.parser c.value)).run d =
      .ok () { d with fields := fields } := by
    rw [Derived.onFields_run, hrun]
  unfold Derived.call Derived.parseArgument
  rw [run_get_bind, h]
  simp only
  rw [run_bind_ok hfields]
  cases item.required && !item.parsed with
  | true => rfl
  | false => rfl

end Calls

/-- The object after a history of calls on the option table `items`. -/
structure Tracks {F : Type} (items : List (Item F)) (history : List (Call × Option Failure))
    (d : Derived F) : Prop where
  items_eq : d.items.items = items.map fun i => { i with parsed := accepted history i.key }
  count_eq : d.requredItemsCount =
    items.countP fun i => i.required && !accepted history i.key

namespace Tracks
variable {F : Type} {items : List (Item F)} {history : List (Call × Option Failure)}
  {d : Derived F}

theorem start (hnodup : (items.map Item.key).Nodup) (hfresh : ∀ i ∈ items, i.parsed = false)
    (fields : F) : Tracks items [] ⟨Arguments.new items, fields⟩ := by
  obtain ⟨hitems, hcount⟩ := Arguments.new_items hnodup
  constructor
  · rw [hitems]
    refine (List.map_congr_left fun i hi => ?_).trans (List.map_id items) |>.symm
    have hparsed := hfresh i hi
    cases i
    simp only at hparsed
    rw [hparsed]
    rfl
  · rw [hcount]
    simp [accepted]

theorem find_eq (h : Tracks items history d) (key : Int) :
    d.items.find key = (items.find? fun i => i.key = key).map fun i =>
      { i with parsed := accepted history i.key } := by
  unfold ItemMap.find
  rw [h.items_eq, List.find?_map]
  rfl

/-- All that a call can do: stop at the assert, throw as its parser does, or return. -/
theorem call_cases (h : Tracks items history d) (c : Call) :
    (c.key ∉ items.map Item.key ∧ d.call c = (d, some .assertion)) ∨
      ∃ item ∈ items, item.key = c.key ∧
        ((∃ e fields, (item.parser c.value).run d.fields = .error e fields ∧
            d.call c = ({ d with fields := fields }, some e)) ∨
          ∃ fields, (item.parser c.value).run d.fields = .ok () fields ∧
            d.call c =
              ({ requredItemsCount :=
                  if item.required && !accepted history item.key then d.requredItemsCount - 1
                  else d.requredItemsCount,
                 items := d.items.markParsed c.key, fields := fields }, none)) := by
  have hfind := h.find_eq c.key
  cases htable : items.find? fun i => i.key = c.key with
  | none =>
    rw [htable] at hfind
    refine .inl ⟨fun hmem => ?_, call_unknown hfind⟩
    obtain ⟨i, hi, hkey⟩ := List.mem_map.mp hmem
    exact List.find?_eq_none.mp htable i hi (decide_eq_true hkey)
  | some item =>
    rw [htable] at hfind
    have hkey : item.key = c.key := by simpa using List.find?_some htable
    refine .inr ⟨item, List.mem_of_find?_eq_some htable, hkey, ?_⟩
    cases hrun : (item.parser c.value).run d.fields with
    | error e fields => exact .inl ⟨e, fields, rfl, call_throws hfind hrun⟩
    | ok _ fields => exact .inr ⟨fields, rfl, call_returns hfind hrun⟩

theorem of_failed (h : Tracks items history d) (c : Call) (e : Failure) {d' : Derived F}
    (hitems : d'.items = d.items) (hcount : d'.requredItemsCount = d.requredItemsCount) :
    Tracks items (history ++ [(c, some e)]) d' := by
  constructor
  · simp only [accepted_append_error]
    rw [hitems]
    exact h.items_eq
  · simp only [accepted_append_error]
    rw [hcount]
    exact h.count_eq

/-- A call that returned sets its flag, and counts down when the flag was not set before. -/
theorem of_accepted (hnodup : (items.map Item.key).Nodup) (h : Tracks items history d) (c : Call)
    {item : Item F} (hmem : item ∈ items) (hkey : item.key = c.key) (fields : F) :
    Tracks items (history ++ [(c, none)])
      { requredItemsCount :=
          if item.required && !accepted history item.key then d.requredItemsCount - 1
          else d.requredItemsCount,
        items := d.items.markParsed c.key, fields := fields } := by
  constructor
  · change d.items.items.map _ = _
    rw [h.items_eq, List.map_map]
    apply List.map_congr_left
    intro i _
    rw [accepted_append_ok]
    by_cases hi : i.key = c.key
    · simp [hi]
    · simp [hi, Ne.symm hi]
  · have hcount := h.count_eq
    have hpredicate : (fun i : Item F => i.required && !accepted (history ++ [(c, none)]) i.key) =
        fun i => (i.required && !accepted history i.key) && !decide (item.key = i.key) := by
      funext i
      rw [accepted_append_ok, hkey, Bool.not_or, Bool.and_assoc]
    change (if _ then _ else _) = _
    rw [hpredicate]
    by_cases hopen : (item.required && !accepted history item.key) = true
    · have hdrop := countP_drop_key (P := fun i => i.required && !accepted history i.key)
        hnodup hmem hopen
      rw [if_pos hopen]
      omega
    · have hsame : items.countP (fun i => (i.required && !accepted history i.key) &&
          !decide (item.key = i.key)) =
          items.countP fun i => i.required && !accepted history i.key := by
        apply List.countP_congr
        intro i hi
        by_cases heq : item.key = i.key
        · have hitem : i = item := List.inj_on_of_nodup_map hnodup hi hmem heq.symm
          rw [hitem]
          simp [hopen]
        · simp [heq]
      rw [if_neg hopen, hsame]
      exact hcount

theorem step (hnodup : (items.map Item.key).Nodup) (h : Tracks items history d) (c : Call) :
    Tracks items (history ++ [(c, (d.call c).2)]) (d.call c).1 := by
  rcases h.call_cases c with
    ⟨_, hcall⟩ | ⟨item, hmem, hkey, ⟨e, fields, _, hcall⟩ | ⟨fields, _, hcall⟩⟩
  · rw [hcall]
    exact h.of_failed c .assertion rfl rfl
  · rw [hcall]
    exact h.of_failed c e rfl rfl
  · rw [hcall]
    exact h.of_accepted hnodup c hmem hkey fields

theorem not_missing_iff (h : Tracks items history d) :
    d.hasNotParsedRequiredArguments = false ↔
      ∀ i ∈ items, i.required = true → accepted history i.key = true := by
  have hcount := h.count_eq
  have hzero : d.hasNotParsedRequiredArguments = false ↔
      items.countP (fun i => i.required && !accepted history i.key) = 0 := by
    unfold Arguments.hasNotParsedRequiredArguments
    rw [decide_eq_false_iff_not, not_not]
    omega
  rw [hzero, List.countP_eq_zero]
  simp

end Tracks

end IpcChecker.CommandLine
