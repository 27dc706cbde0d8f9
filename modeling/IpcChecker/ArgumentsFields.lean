import IpcChecker.ArgumentsCounter

/-!
# What the options leave in the fields

The number an option was given last is the one its field holds, as long as every
other option leaves the field alone; and which strings each kind of parser rejects.
-/

namespace IpcChecker.CommandLine
open Shared
set_option autoImplicit false

/-- What a call leaves in the fields. -/
def fieldsAfter {F : Type} : EStateM.Result Failure F Unit → F
  | .ok _ fields => fields
  | .error _ fields => fields

/-- A field that holds a number, and the option for it. -/
structure NumericField (F : Type) where
  key : Int
  type : IntegerType
  get : F → Option type.Value

/-- A numeral is stored as its value. -/
def NumericField.Stores {F : Type} (field : NumericField F)
    (parser : StringView → Action F Unit) : Prop :=
  ∀ value v fields, Decimal.Numeral field.type value v →
    field.get (fieldsAfter ((parser value).run fields)) = some v

/-- Only its own option changes the field. -/
structure NumericField.Lawful {F : Type} (items : List (Item F)) (field : NumericField F) :
    Prop where
  own : ∃ i ∈ items, i.key = field.key
  keeps : ∀ i ∈ items, i.key ≠ field.key → ∀ value fields,
    field.get (fieldsAfter ((i.parser value).run fields)) = field.get fields
  stores : ∀ i ∈ items, i.key = field.key → field.Stores i.parser

/-- The value of the last call for the key. -/
def lastValue (calls : List Call) (key : Int) : Option StringView :=
  calls.foldl (fun last c => if c.key = key then some c.value else last) none

theorem lastValue_append (calls : List Call) (c : Call) (key : Int) :
    lastValue (calls ++ [c]) key = if c.key = key then some c.value else lastValue calls key := by
  unfold lastValue
  rw [List.foldl_append]
  rfl

section Fields
variable {F : Type} {items : List (Item F)}

/-- After the calls a numeral given last is what the field holds. -/
def Stored (field : NumericField F) (calls : List Call) (fields : F) : Prop :=
  ∀ value v, lastValue calls field.key = some value → Decimal.Numeral field.type value v →
    field.get fields = some v

theorem stored_step {field : NumericField F} (hlaw : field.Lawful items)
    {history : List (Call × Option Failure)} {d : Derived F} (htracks : Tracks items history d)
    {calls : List Call} (h : Stored field calls d.fields) (c : Call) :
    Stored field (calls ++ [c]) (d.call c).1.fields := by
  intro value v hlast hnumeral
  rw [lastValue_append] at hlast
  rcases htracks.call_cases c with ⟨hunknown, hcall⟩ | ⟨item, hmem, hkey, hresult⟩
  · have hother : c.key ≠ field.key := by
      intro heq
      obtain ⟨i, hi, hown⟩ := hlaw.own
      exact hunknown (List.mem_map.mpr ⟨i, hi, hown.trans heq.symm⟩)
    rw [if_neg hother] at hlast
    rw [hcall]
    exact h value v hlast hnumeral
  · have hfields : (d.call c).1.fields = fieldsAfter ((item.parser c.value).run d.fields) := by
      rcases hresult with ⟨e, fields, hrun, hcall⟩ | ⟨fields, hrun, hcall⟩
      · rw [hrun, hcall]
        rfl
      · rw [hrun, hcall]
        rfl
    rw [hfields]
    by_cases hown : c.key = field.key
    · rw [if_pos hown] at hlast
      cases hlast
      exact hlaw.stores item hmem (hkey.trans hown) c.value v d.fields hnumeral
    · rw [if_neg hown] at hlast
      rw [hlaw.keeps item hmem (fun heq => hown (hkey.symm.trans heq)) c.value d.fields]
      exact h value v hlast hnumeral

end Fields

section Parsers
variable {F A : Type} {get : F → A}

theorem parseNumber_keeps {type : IntegerType} {member : Member F (Option type.Value)}
    (h : ∀ f a, get (member.set f a) = get f) (value : StringView) (fields : F) :
    get (fieldsAfter ((parseNumber type member value).run fields)) = get fields := h _ _

theorem parseOptionalNumber_keeps {type : IntegerType}
    {member : Member F (Option (Option type.Value))}
    (h : ∀ f a, get (member.set f a) = get f) (value : StringView) (fields : F) :
    get (fieldsAfter ((parseOptionalNumber type member value).run fields)) = get fields := h _ _

theorem parseConnectionTo_keeps {typeMember : Member F (Option ConnectionType)}
    {idMember : Member F StringView} (htype : ∀ f a, get (typeMember.set f a) = get f)
    (hid : ∀ f a, get (idMember.set f a) = get f) (value : StringView) (fields : F) :
    get (fieldsAfter ((parseConnectionTo typeMember idMember value).run fields)) = get fields := by
  unfold parseConnectionTo
  by_cases hvalue : IsConnectionString value
  · obtain ⟨type, id, rfl⟩ := hvalue
    rw [parseConnection_run]
    exact (hid _ _).trans (htype _ _)
  · obtain ⟨what, hrun⟩ := parseConnection_throws _ _ hvalue fields
    rw [hrun]
    rfl

theorem parseConnectionType_run (member : Member F (Option ConnectionType)) (type : ConnectionType)
    (fields : F) : (parseConnectionType member type.toString).run fields =
      .ok () (member.set fields (some type)) := by
  unfold parseConnectionType
  rw [convert_toString, pure_bind]
  rfl

theorem parseConnectionType_throws (member : Member F (Option ConnectionType)) {value : StringView}
    (h : ¬ IsConnectionType value) (fields : F) :
    ∃ what, (parseConnectionType member value).run fields = .error (.exception what) fields := by
  have hother : ∀ type : ConnectionType, value ≠ type.toString := fun type heq => h ⟨type, heq⟩
  unfold parseConnectionType
  rw [convert_other hother, run_throw_bind]
  exact ⟨_, rfl⟩

theorem parseConnectionType_keeps {member : Member F (Option ConnectionType)}
    (h : ∀ f a, get (member.set f a) = get f) (value : StringView) (fields : F) :
    get (fieldsAfter ((parseConnectionType member value).run fields)) = get fields := by
  by_cases hvalue : IsConnectionType value
  · obtain ⟨type, rfl⟩ := hvalue
    rw [parseConnectionType_run]
    exact h _ _
  · obtain ⟨what, hrun⟩ := parseConnectionType_throws member hvalue fields
    rw [hrun]
    rfl

theorem fromCharsTo_numeral {type : IntegerType} {value : StringView} {v : type.Value}
    (h : Decimal.Numeral type value v) (target : Option type.Value) :
    fromCharsTo type value target = some v := by
  unfold fromCharsTo
  rw [Decimal.fromChars_whole_iff.mpr h]

theorem parseNumber_stores {key : Int} {type : IntegerType}
    {member : Member F (Option type.Value)} {get : F → Option type.Value}
    (hget : ∀ f, get f = member.get f) :
    NumericField.Stores ⟨key, type, get⟩ (parseNumber type member) := by
  intro value v fields h
  change get _ = _
  rw [hget]
  exact (member.get_set _ _).trans (fromCharsTo_numeral h _)

theorem parseOptionalNumber_stores {key : Int} {type : IntegerType}
    {member : Member F (Option (Option type.Value))} {get : F → Option type.Value}
    (hget : ∀ f, get f = (member.get f).join) :
    NumericField.Stores ⟨key, type, get⟩ (parseOptionalNumber type member) := by
  intro value v fields h
  have hset : member.get (fieldsAfter ((parseOptionalNumber type member value).run fields)) =
      some (fromCharsTo type value none) := member.get_set _ _
  change get _ = _
  rw [hget, hset, fromCharsTo_numeral h]
  rfl

/-- A parser that returns on the good values and throws an exception on the others. -/
def Decides (parser : StringView → Action F Unit) (good : StringView → Prop) : Prop :=
  ∀ value fields,
    good value ∧ (∃ after, (parser value).run fields = .ok () after) ∨
      ¬ good value ∧ ∃ what after, (parser value).run fields = .error (.exception what) after

theorem parseNumber_decides {type : IntegerType} {member : Member F (Option type.Value)} :
    Decides (parseNumber type member) fun _ => True :=
  fun _ _ => .inl ⟨trivial, _, rfl⟩

theorem parseOptionalNumber_decides {type : IntegerType}
    {member : Member F (Option (Option type.Value))} :
    Decides (parseOptionalNumber type member) fun _ => True :=
  fun _ _ => .inl ⟨trivial, _, rfl⟩

theorem parseConnectionTo_decides {typeMember : Member F (Option ConnectionType)}
    {idMember : Member F StringView} :
    Decides (parseConnectionTo typeMember idMember) IsConnectionString := by
  intro value fields
  unfold parseConnectionTo
  by_cases hvalue : IsConnectionString value
  · refine .inl ⟨hvalue, ?_⟩
    obtain ⟨type, id, rfl⟩ := hvalue
    exact ⟨_, parseConnection_run _ _ type id fields⟩
  · obtain ⟨what, hrun⟩ := parseConnection_throws _ _ hvalue fields
    exact .inr ⟨hvalue, what, fields, hrun⟩

theorem parseConnectionType_decides {member : Member F (Option ConnectionType)} :
    Decides (parseConnectionType member) IsConnectionType := by
  intro value fields
  by_cases hvalue : IsConnectionType value
  · refine .inl ⟨hvalue, ?_⟩
    obtain ⟨type, rfl⟩ := hvalue
    exact ⟨_, parseConnectionType_run member type fields⟩
  · obtain ⟨what, hrun⟩ := parseConnectionType_throws member hvalue fields
    exact .inr ⟨hvalue, what, fields, hrun⟩

end Parsers

end IpcChecker.CommandLine
