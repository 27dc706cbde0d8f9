import IpcChecker.ArgumentsFields
import Mathlib.Tactic.FinCases

/-!
# What an accepted command line means

The option tables of the four programs have distinct keys and fields of their own.
So the counter tells which options are missing, and the numbers of an accepted
command line are those that were written, where each of them is a numeral.
-/

namespace IpcChecker.CommandLine
open Shared
set_option autoImplicit false

def ConsumerArguments.numericFields : List (NumericField ConsumerArguments) :=
  [⟨kChunksTotalCount, sizeT, chunksTotalCount⟩,
    ⟨kConnectionBufferSize, sizeT, fun f => f.connectionBufferSize.join⟩, ⟨kCpu, cInt, cpu⟩]

def ProducerArguments.numericFields : List (NumericField ProducerArguments) :=
  [⟨kChunksSize, sizeT, chunksSize⟩, ⟨kChunksTotalCount, sizeT, chunksTotalCount⟩,
    ⟨kConnectionBufferSize, sizeT, fun f => f.connectionBufferSize.join⟩, ⟨kCpu, cInt, cpu⟩]

def AnalizerArguments.numericFields : List (NumericField AnalizerArguments) :=
  [⟨kChunksTotalCount, sizeT, chunksTotalCount⟩]

def RunTestArguments.numericFields : List (NumericField RunTestArguments) :=
  [⟨kChunksSize, sizeT, chunksSize⟩, ⟨kChunksTotalCount, sizeT, chunksTotalCount⟩,
    ⟨kConnectionBufferSize, sizeT, connectionBufferSize⟩,
    ⟨kEnvironmentProducerCpu, cInt, environmentProducerCpu⟩,
    ⟨kEnvironmentConsumerCpu, cInt, environmentConsumerCpu⟩]

namespace Mode

def numericFields : (m : Mode) → List (NumericField m.Fields)
  | .consumer => ConsumerArguments.numericFields
  | .producer => ProducerArguments.numericFields
  | .analyzer => AnalizerArguments.numericFields
  | .runTest => RunTestArguments.numericFields

theorem keys_nodup (m : Mode) : (m.items.map Item.key).Nodup := by
  cases m <;> decide

theorem items_fresh (m : Mode) : ∀ i ∈ m.items, i.parsed = false := by
  have hflags : ∀ flag ∈ m.items.map Item.parsed, flag = false := by
    cases m <;> decide
  intro i hi
  exact hflags i.parsed (List.mem_map_of_mem hi)

theorem numericFields_own (m : Mode) :
    ∀ field ∈ m.numericFields, ∃ i ∈ m.items, i.key = field.key := by
  have hkeys : ∀ key ∈ m.numericFields.map NumericField.key, key ∈ m.items.map Item.key := by
    cases m <;> decide
  intro field hfield
  exact List.mem_map.mp (hkeys field.key (List.mem_map_of_mem hfield))

theorem numericFields_keeps (m : Mode) : ∀ field ∈ m.numericFields, ∀ i ∈ m.items,
    i.key ≠ field.key → ∀ value fields,
      field.get (fieldsAfter ((i.parser value).run fields)) = field.get fields := by
  intro field hfield i hi hkey value fields
  cases m <;> fin_cases hfield <;> fin_cases hi <;>
    first
    | exact absurd rfl hkey
    | exact parseNumber_keeps (fun _ _ => rfl) value fields
    | exact parseOptionalNumber_keeps (fun _ _ => rfl) value fields
    | exact parseConnectionTo_keeps (fun _ _ => rfl) (fun _ _ => rfl) value fields
    | exact parseConnectionType_keeps (fun _ _ => rfl) value fields

theorem numericFields_stores (m : Mode) : ∀ field ∈ m.numericFields, ∀ i ∈ m.items,
    i.key = field.key → field.Stores i.parser := by
  intro field hfield i hi hkey
  cases m <;> fin_cases hfield <;> fin_cases hi <;>
    first
    | exact absurd hkey (by decide)
    | exact parseNumber_stores fun _ => rfl
    | exact parseOptionalNumber_stores fun _ => rfl

/-- The options that take a connection. -/
def connectionKeys : Mode → List Int
  | .consumer => [ConsumerArguments.kConnection, ConsumerArguments.kMeasurer]
  | .producer => [ProducerArguments.kConnection, ProducerArguments.kMeasurer]
  | .analyzer => [AnalizerArguments.kMeasurerProducer, AnalizerArguments.kMeasurerConsumer]
  | .runTest => [RunTestArguments.kConnection]

/-- What such an option takes: a connection string, or in a test run the bare type. -/
def ConnectionForm : Mode → StringView → Prop
  | .consumer => IsConnectionString
  | .producer => IsConnectionString
  | .analyzer => IsConnectionString
  | .runTest => IsConnectionType

def WellFormed (m : Mode) (c : Call) : Prop :=
  c.key ∈ m.connectionKeys → m.ConnectionForm c.value

theorem numbers_decide (m : Mode) : ∀ i ∈ m.items, i.key ∉ m.connectionKeys →
    Decides i.parser fun _ => True := by
  intro i hi hkey
  cases m <;> fin_cases hi <;>
    first
    | exact absurd (by decide) hkey
    | exact parseNumber_decides
    | exact parseOptionalNumber_decides

theorem connections_decide (m : Mode) : ∀ i ∈ m.items, i.key ∈ m.connectionKeys →
    Decides i.parser m.ConnectionForm := by
  intro i hi hkey
  cases m <;> fin_cases hi <;>
    first
    | exact absurd hkey (by decide)
    | exact parseConnectionTo_decides
    | exact parseConnectionType_decides

/-- Every parser returns on what its option takes, and throws an exception otherwise. -/
theorem items_decide (m : Mode) {i : Item m.Fields} (hi : i ∈ m.items) (value : StringView)
    (fields : m.Fields) :
    m.WellFormed ⟨i.key, value⟩ ∧ (∃ after, (i.parser value).run fields = .ok () after) ∨
      ¬ m.WellFormed ⟨i.key, value⟩ ∧
        ∃ what after, (i.parser value).run fields = .error (.exception what) after := by
  by_cases hkey : i.key ∈ m.connectionKeys
  · rcases m.connections_decide i hi hkey value fields with ⟨hgood, hok⟩ | ⟨hbad, herror⟩
    · exact .inl ⟨fun _ => hgood, hok⟩
    · exact .inr ⟨fun h => hbad (h hkey), herror⟩
  · rcases m.numbers_decide i hi hkey value fields with ⟨_, hok⟩ | ⟨hfalse, _⟩
    · exact .inl ⟨fun h => absurd h hkey, hok⟩
    · exact absurd trivial hfalse

theorem numericFields_lawful (m : Mode) {field : NumericField m.Fields}
    (h : field ∈ m.numericFields) : field.Lawful m.items where
  own := m.numericFields_own field h
  keeps := m.numericFields_keeps field h
  stores := m.numericFields_stores field h

/-- The object after a history of calls: flags and counter, numbers, and who failed. -/
structure RunInvariant (m : Mode) (history : List (Call × Option Failure))
    (d : Derived m.Fields) : Prop where
  tracks : Tracks m.items history d
  stored : ∀ field ∈ m.numericFields, Stored field (history.map Prod.fst) d.fields
  outcomes : ∀ e ∈ history, e.1.key ∈ m.items.map Item.key →
    (e.2 = none ↔ m.WellFormed e.1) ∧ e.2 ≠ some .assertion

theorem call_outcome {m : Mode} {history : List (Call × Option Failure)} {d : Derived m.Fields}
    (h : Tracks m.items history d) {c : Call} (hknown : c.key ∈ m.items.map Item.key) :
    ((d.call c).2 = none ↔ m.WellFormed c) ∧ (d.call c).2 ≠ some .assertion := by
  rcases h.call_cases c with ⟨hunknown, _⟩ | ⟨item, hmem, hkey, hresult⟩
  · exact absurd hknown hunknown
  · have hdecide := m.items_decide hmem c.value d.fields
    rw [hkey] at hdecide
    rcases hresult with ⟨e, fields, hrun, hcall⟩ | ⟨fields, hrun, hcall⟩
    · rw [hrun] at hdecide
      rcases hdecide with ⟨_, after, hok⟩ | ⟨hbad, what, after, herror⟩
      · cases hok
      · cases herror
        rw [hcall]
        exact ⟨⟨nofun, fun h => absurd h hbad⟩, nofun⟩
    · rw [hrun] at hdecide
      rcases hdecide with ⟨hgood, _⟩ | ⟨_, what, after, herror⟩
      · rw [hcall]
        exact ⟨⟨fun _ => hgood, fun _ => rfl⟩, nofun⟩
      · cases herror

theorem RunInvariant.step {m : Mode} {history : List (Call × Option Failure)}
    {d : Derived m.Fields} (h : m.RunInvariant history d) (c : Call) :
    m.RunInvariant (history ++ [(c, (d.call c).2)]) (d.call c).1 where
  tracks := h.tracks.step m.keys_nodup c
  stored := by
    intro field hfield
    rw [List.map_append]
    exact stored_step (m.numericFields_lawful hfield) h.tracks (h.stored field hfield) c
  outcomes := by
    intro e he hknown
    rcases List.mem_append.mp he with hbefore | hlast
    · exact h.outcomes e hbefore hknown
    · obtain rfl := List.mem_singleton.mp hlast
      exact call_outcome h.tracks hknown

theorem parse_invariant (m : Mode) (calls : List Call) :
    m.RunInvariant (m.parse calls).2 (m.parse calls).1 := by
  apply Machine.run_invariant_history Derived.call (I := fun history d => m.RunInvariant history d)
    (fun _ _ c h => h.step c) calls [] m.new
  constructor
  · exact Tracks.start m.keys_nodup m.items_fresh m.fields
  · intro field _ value v hlast
    cases hlast
  · intro e he
    cases he

theorem parse_inputs (m : Mode) (calls : List Call) : (m.parse calls).2.map Prod.fst = calls :=
  Machine.run_inputs _ _ _

theorem mem_parse_inputs {m : Mode} {calls : List Call} {c : Call} (h : c ∈ calls) :
    ∃ failure, (c, failure) ∈ (m.parse calls).2 := by
  rw [← m.parse_inputs calls] at h
  obtain ⟨⟨c, failure⟩, hmem, rfl⟩ := List.mem_map.mp h
  exact ⟨failure, hmem⟩

/-- The numbers of an accepted command line are the ones that were written. -/
def NumbersMean (m : Mode) (calls : List Call) : Prop :=
  (∀ e ∈ (m.parse calls).2, e.2 = none) →
    (m.parse calls).1.hasNotParsedRequiredArguments = false →
      ∀ field ∈ m.numericFields, ∀ value, lastValue calls field.key = some value →
        ∃ v, field.get (m.parse calls).1.fields = some v ∧ Decimal.Numeral field.type value v

/-- The last value of every option for a number is a numeral of the field's type. -/
def NumbersWritten (m : Mode) (calls : List Call) : Prop :=
  ∀ field ∈ m.numericFields, ∀ value, lastValue calls field.key = some value →
    ∃ v, Decimal.Numeral field.type value v

section Accepted
variable {m : Mode} {calls : List Call} (hknown : ∀ c ∈ calls, c.key ∈ m.items.map Item.key)
include hknown

theorem no_failure_iff :
    (∀ e ∈ (m.parse calls).2, e.2 = none) ↔ ∀ c ∈ calls, m.WellFormed c := by
  have hinv := m.parse_invariant calls
  constructor
  · intro hnone c hc
    obtain ⟨failure, hmem⟩ := mem_parse_inputs hc
    exact (hinv.outcomes (c, failure) hmem (hknown c hc)).1.mp (hnone (c, failure) hmem)
  · intro hgood e he
    have hc : e.1 ∈ calls := m.parse_inputs calls ▸ List.mem_map_of_mem he
    exact (hinv.outcomes e he (hknown e.1 hc)).1.mpr (hgood e.1 hc)

omit hknown in
theorem not_missing_iff_accepted :
    (m.parse calls).1.hasNotParsedRequiredArguments = false ↔
      ∀ i ∈ m.items, i.required = true →
        ∃ c, c.key = i.key ∧ (c, none) ∈ (m.parse calls).2 := by
  simp only [(m.parse_invariant calls).tracks.not_missing_iff, accepted_iff]

theorem numbersMean_iff :
    m.NumbersMean calls ↔
      (∃ c ∈ calls, ¬ m.WellFormed c) ∨
        (∃ i ∈ m.items, i.required = true ∧ ∀ c ∈ calls, c.key ≠ i.key) ∨
          m.NumbersWritten calls := by
  have hinv := m.parse_invariant calls
  constructor
  · intro h
    by_cases hgood : ∀ c ∈ calls, m.WellFormed c
    · by_cases hgiven : ∀ i ∈ m.items, i.required = true → ∃ c ∈ calls, c.key = i.key
      · have hnone := (no_failure_iff hknown).mpr hgood
        have hcomplete : (m.parse calls).1.hasNotParsedRequiredArguments = false := by
          rw [not_missing_iff_accepted]
          intro i hi hrequired
          obtain ⟨c, hc, hkey⟩ := hgiven i hi hrequired
          obtain ⟨failure, hmem⟩ := mem_parse_inputs hc
          obtain rfl : failure = none := hnone _ hmem
          exact ⟨c, hkey, hmem⟩
        refine .inr (.inr fun field hfield value hlast => ?_)
        obtain ⟨v, _, hnumeral⟩ := h hnone hcomplete field hfield value hlast
        exact ⟨v, hnumeral⟩
      · push Not at hgiven
        exact .inr (.inl hgiven)
    · push Not at hgood
      exact .inl hgood
  · rintro (⟨c, hc, hbad⟩ | ⟨i, hi, hrequired, hmissing⟩ | hwritten) hnone hcomplete
    · exact absurd ((no_failure_iff hknown).mp hnone c hc) hbad
    · obtain ⟨c, hkey, hmem⟩ := not_missing_iff_accepted.mp hcomplete i hi hrequired
      have hc : c ∈ calls := m.parse_inputs calls ▸ List.mem_map_of_mem hmem
      exact absurd hkey (hmissing c hc)
    · intro field hfield value hlast
      obtain ⟨v, hnumeral⟩ := hwritten field hfield value hlast
      have hstored := hinv.stored field hfield value v
      rw [m.parse_inputs calls] at hstored
      exact ⟨v, hstored hlast hnumeral, hnumeral⟩

end Accepted
end Mode

/-- No assert fails, the counter tells which options are missing, and the numbers of
an accepted command line mean what was written when every one of them is a numeral. -/
theorem accepted_command_lines (m : Mode) (calls : List Call)
    (hknown : ∀ c ∈ calls, c.key ∈ m.items.map Item.key) :
    (∀ e ∈ (m.parse calls).2, e.2 ≠ some .assertion) ∧
      ((m.parse calls).1.hasNotParsedRequiredArguments = false ↔
        ∀ i ∈ m.items, i.required = true →
          ∃ c, c.key = i.key ∧ (c, none) ∈ (m.parse calls).2) ∧
        (m.NumbersMean calls ↔
          (∃ c ∈ calls, ¬ m.WellFormed c) ∨
            (∃ i ∈ m.items, i.required = true ∧ ∀ c ∈ calls, c.key ≠ i.key) ∨
              m.NumbersWritten calls) := by
  refine ⟨?_, Mode.not_missing_iff_accepted, Mode.numbersMean_iff hknown⟩
  intro e he
  have hc : e.1 ∈ calls := m.parse_inputs calls ▸ List.mem_map_of_mem he
  exact ((m.parse_invariant calls).outcomes e he (hknown e.1 hc)).2

def sampleConnections : List Call :=
  [⟨AnalizerArguments.kMeasurerProducer, Text.bytes "shmem://p"⟩,
    ⟨AnalizerArguments.kMeasurerConsumer, Text.bytes "netsock://h:1"⟩]

def wholeNumber : List Call :=
  ⟨AnalizerArguments.kChunksTotalCount, Text.bytes "12"⟩ :: sampleConnections

theorem accepted_command_lines_sample :
    (Mode.analyzer.parse wholeNumber).1.hasNotParsedRequiredArguments = false ∧
      Mode.analyzer.NumbersMean wholeNumber := by
  have hnumbers := (accepted_command_lines .analyzer wholeNumber (by decide)).2.2
  have hwritten : Mode.analyzer.NumbersWritten wholeNumber := by
    intro field hfield value hlast
    obtain rfl := List.mem_singleton.mp hfield
    cases hlast
    exact ⟨⟨12, by decide⟩, Decimal.fromChars_whole_iff.mp rfl⟩
  exact ⟨by decide, hnumbers.mpr (.inr (.inr hwritten))⟩

def truncatedNumber : List Call :=
  ⟨AnalizerArguments.kChunksTotalCount, Text.bytes "12abc"⟩ :: sampleConnections

/-- The analyzer accepts a partly numeric count and goes on with its front part. -/
theorem truncated_number_accepted :
    (∀ e ∈ (Mode.analyzer.parse truncatedNumber).2, e.2 = none) ∧
      (Mode.analyzer.parse truncatedNumber).1.hasNotParsedRequiredArguments = false ∧
      AnalizerArguments.chunksTotalCount (Mode.analyzer.parse truncatedNumber).1.fields =
        some ⟨12, by decide⟩ ∧
      ¬ Mode.analyzer.NumbersMean truncatedNumber := by
  have hnone : ∀ e ∈ (Mode.analyzer.parse truncatedNumber).2, e.2 = none := by decide
  have hcomplete :
      (Mode.analyzer.parse truncatedNumber).1.hasNotParsedRequiredArguments = false := by decide
  refine ⟨hnone, hcomplete, rfl, fun h => ?_⟩
  obtain ⟨v, _, hnumeral⟩ := h hnone hcomplete _ List.mem_cons_self (Text.bytes "12abc") rfl
  have hread : Decimal.fromChars sizeT (Text.bytes "12abc") =
      .ok (⟨12, by decide⟩, Text.bytes "abc") := rfl
  have hwhole := Decimal.fromChars_whole_iff.mpr hnumeral
  rw [hread] at hwhole
  cases hwhole

end IpcChecker.CommandLine
