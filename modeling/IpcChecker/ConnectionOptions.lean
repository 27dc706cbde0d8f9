import IpcChecker.CommandLine
import IpcChecker.Endpoint

/-!
# The options that take a connection string

Which clients and servers the options of the programs lead to, what a call of such
an option leaves for them, and when a client reaches the endpoint that was written.
-/

namespace IpcChecker.CommandLine
open Shared Endpoint
set_option autoImplicit false

/-! The parameters that `run.cpp` takes from the arguments; none before the type is written. -/

def ProducerArguments.consumerProducerConnectionClientParams (arguments : ProducerArguments) :
    Option ConnectionParams :=
  arguments.connectionType.map fun type => ⟨type, arguments.connectionId⟩

def ProducerArguments.measurerProducerConnectionClientParams (arguments : ProducerArguments) :
    Option ConnectionParams :=
  arguments.measurerConnectionType.map fun type => ⟨type, arguments.measurerConnectionId⟩

def ConsumerArguments.consumerProducerConnectionServerParams (arguments : ConsumerArguments) :
    Option ConnectionParams :=
  arguments.connectionType.map fun type => ⟨type, arguments.connectionId⟩

def ConsumerArguments.measurerConsumerConnectionClientParams (arguments : ConsumerArguments) :
    Option ConnectionParams :=
  arguments.measurerConnectionType.map fun type => ⟨type, arguments.measurerConnectionId⟩

def AnalizerArguments.measurerProducerConnectionServerParams (arguments : AnalizerArguments) :
    Option ConnectionParams :=
  arguments.measurerProducerConnectionType.map fun type =>
    ⟨type, arguments.measurerProducerConnectionId⟩

def AnalizerArguments.measurerConsumerConnectionServerParams (arguments : AnalizerArguments) :
    Option ConnectionParams :=
  arguments.measurerConsumerConnectionType.map fun type =>
    ⟨type, arguments.measurerConsumerConnectionId⟩

/-- An option for a connection string, and whether the connection is made by a client. -/
structure ConnectionOption (F : Type) where
  key : Int
  params : F → Option ConnectionParams
  isClient : Bool

def ProducerArguments.connection : ConnectionOption ProducerArguments :=
  ⟨kConnection, consumerProducerConnectionClientParams, true⟩

def ProducerArguments.measurer : ConnectionOption ProducerArguments :=
  ⟨kMeasurer, measurerProducerConnectionClientParams, true⟩

def ConsumerArguments.connection : ConnectionOption ConsumerArguments :=
  ⟨kConnection, consumerProducerConnectionServerParams, false⟩

def ConsumerArguments.measurer : ConnectionOption ConsumerArguments :=
  ⟨kMeasurer, measurerConsumerConnectionClientParams, true⟩

def AnalizerArguments.measurerProducer : ConnectionOption AnalizerArguments :=
  ⟨kMeasurerProducer, measurerProducerConnectionServerParams, false⟩

def AnalizerArguments.measurerConsumer : ConnectionOption AnalizerArguments :=
  ⟨kMeasurerConsumer, measurerConsumerConnectionServerParams, false⟩

/-- A call of the option takes a connection string apart into its parameters, which no other
option changes, and throws on any other string without a trace. -/
structure ConnectionOption.Lawful {F : Type} (items : List (Item F))
    (option : ConnectionOption F) : Prop where
  own : ∃ i ∈ items, i.key = option.key
  keeps : ∀ i ∈ items, i.key ≠ option.key → ∀ value fields,
    option.params (fieldsAfter ((i.parser value).run fields)) = option.params fields
  takes : ∀ i ∈ items, i.key = option.key → ∀ (type : ConnectionType) (id : StringView) fields,
    ∃ after, (i.parser (type.toString ++ separator ++ id)).run fields = .ok () after ∧
      option.params after = some ⟨type, id⟩
  rejects : ∀ i ∈ items, i.key = option.key → ∀ value fields, ¬ IsConnectionString value →
    ∃ what, (i.parser value).run fields = .error (.exception what) fields

section Parsers
variable {F : Type} {typeMember : Member F (Option ConnectionType)} {idMember : Member F StringView}

theorem parseConnectionTo_takes {params : F → Option ConnectionParams}
    (h : ∀ f type id, params (idMember.set (typeMember.set f (some type)) id) = some ⟨type, id⟩)
    (type : ConnectionType) (id : StringView) (fields : F) :
    ∃ after, (parseConnectionTo typeMember idMember (type.toString ++ separator ++ id)).run fields =
      .ok () after ∧ params after = some ⟨type, id⟩ := by
  refine ⟨_, ?_, h fields type id⟩
  unfold parseConnectionTo
  rw [parseConnection_run]

theorem parseConnectionTo_rejects {value : StringView} (h : ¬ IsConnectionString value)
    (fields : F) : ∃ what,
      (parseConnectionTo typeMember idMember value).run fields = .error (.exception what) fields :=
  parseConnection_throws _ _ h fields

end Parsers

namespace Mode

/-- `--connection` of a test run takes a bare type and is not among them. -/
def connectionOptions : (m : Mode) → List (ConnectionOption m.Fields)
  | .consumer => [ConsumerArguments.connection, ConsumerArguments.measurer]
  | .producer => [ProducerArguments.connection, ProducerArguments.measurer]
  | .analyzer => [AnalizerArguments.measurerProducer, AnalizerArguments.measurerConsumer]
  | .runTest => []

theorem connectionOptions_lawful (m : Mode) :
    ∀ option ∈ m.connectionOptions, option.Lawful m.items := by
  intro option hoption
  constructor
  · have hkeys : ∀ key ∈ m.connectionOptions.map ConnectionOption.key,
        key ∈ m.items.map Item.key := by
      cases m <;> decide
    exact List.mem_map.mp (hkeys option.key (List.mem_map_of_mem hoption))
  · intro i hi hkey value fields
    cases m <;> fin_cases hoption <;> fin_cases hi <;>
      first
      | exact absurd rfl hkey
      | exact parseNumber_keeps (fun _ _ => rfl) value fields
      | exact parseOptionalNumber_keeps (fun _ _ => rfl) value fields
      | exact parseConnectionTo_keeps (fun _ _ => rfl) (fun _ _ => rfl) value fields
  · intro i hi hkey type id fields
    cases m <;> fin_cases hoption <;> fin_cases hi <;>
      first
      | exact absurd hkey (by decide)
      | exact parseConnectionTo_takes (fun _ _ _ => rfl) type id fields
  · intro i hi hkey value fields hvalue
    cases m <;> fin_cases hoption <;> fin_cases hi <;>
      first
      | exact absurd hkey (by decide)
      | exact parseConnectionTo_rejects hvalue fields

/-- The object after the calls. -/
abbrev parsed (m : Mode) (calls : List Call) : Derived m.Fields := (m.parse calls).1

theorem parsed_append (m : Mode) (calls : List Call) (c : Call) :
    m.parsed (calls ++ [c]) = ((m.parsed calls).call c).1 :=
  Machine.run_append Derived.call calls [c] m.new

section Option
variable {m : Mode} {option : ConnectionOption m.Fields} (h : option ∈ m.connectionOptions)
include h

/-- The option is in the table, so its call comes to what the parser of its item comes to. -/
theorem call_option (calls : List Call) (value : StringView) :
    ∃ item ∈ m.items, item.key = option.key ∧
      ((∃ e fields, (item.parser value).run (m.parsed calls).fields = .error e fields ∧
          (m.parsed calls).call ⟨option.key, value⟩ =
            ({ m.parsed calls with fields := fields }, some e)) ∨
        ∃ fields, (item.parser value).run (m.parsed calls).fields = .ok () fields ∧
          ((m.parsed calls).call ⟨option.key, value⟩).2 = none ∧
          ((m.parsed calls).call ⟨option.key, value⟩).1.fields = fields) := by
  rcases (m.parse_invariant calls).tracks.call_cases ⟨option.key, value⟩ with
    ⟨hunknown, _⟩ | ⟨item, hmem, hkey, hresult⟩
  · obtain ⟨i, hi, hown⟩ := (m.connectionOptions_lawful option h).own
    exact absurd (List.mem_map.mpr ⟨i, hi, hown⟩) hunknown
  · refine ⟨item, hmem, hkey, ?_⟩
    rcases hresult with hthrows | ⟨fields, hrun, hcall⟩
    · exact .inl hthrows
    · exact .inr ⟨fields, hrun, congrArg Prod.snd hcall, congrArg (fun d => d.1.fields) hcall⟩

/-- After any calls a connection string is accepted and its parts are what the option holds. -/
theorem call_takes (calls : List Call) (type : ConnectionType) (id : StringView) :
    ((m.parsed calls).call ⟨option.key, type.toString ++ separator ++ id⟩).2 = none ∧
      option.params (m.parsed (calls ++ [⟨option.key, type.toString ++ separator ++ id⟩])).fields =
        some ⟨type, id⟩ := by
  have hlaw := m.connectionOptions_lawful option h
  obtain ⟨item, hmem, hkey, hresult⟩ :=
    call_option h calls (type.toString ++ separator ++ id)
  obtain ⟨after, hrun, hparams⟩ := hlaw.takes item hmem hkey type id (m.parsed calls).fields
  rw [hrun] at hresult
  rcases hresult with ⟨e, fields, herror, _⟩ | ⟨fields, hok, hnone, hfields⟩
  · cases herror
  · cases hok
    rw [parsed_append, hfields]
    exact ⟨hnone, hparams⟩

theorem call_rejects (calls : List Call) {value : StringView} (hvalue : ¬ IsConnectionString value) :
    ∃ what, (m.parsed calls).call ⟨option.key, value⟩ =
      (m.parsed calls, some (.exception what)) := by
  have hlaw := m.connectionOptions_lawful option h
  obtain ⟨item, hmem, hkey, hresult⟩ := call_option h calls value
  obtain ⟨what, hrun⟩ := hlaw.rejects item hmem hkey value (m.parsed calls).fields hvalue
  rw [hrun] at hresult
  rcases hresult with ⟨e, fields, herror, hcall⟩ | ⟨fields, hok, _⟩
  · cases herror
    exact ⟨what, hcall⟩
  · cases hok

theorem call_keeps (calls : List Call) {c : Call} (hc : c.key ≠ option.key) :
    option.params (m.parsed (calls ++ [c])).fields = option.params (m.parsed calls).fields := by
  have hlaw := m.connectionOptions_lawful option h
  rw [parsed_append]
  rcases (m.parse_invariant calls).tracks.call_cases c with
    ⟨_, hcall⟩ | ⟨item, hmem, hkey, hresult⟩
  · rw [hcall]
  · have hkeeps := hlaw.keeps item hmem (hkey ▸ hc) c.value (m.parsed calls).fields
    rcases hresult with ⟨e, fields, hrun, hcall⟩ | ⟨fields, hrun, hcall⟩
    · rw [hrun] at hkeeps
      rw [hcall]
      exact hkeeps
    · rw [hrun] at hkeeps
      rw [hcall]
      exact hkeeps

/-- What the option holds is decided by its last call. -/
theorem params_last (before : List Call) (type : ConnectionType) (id : StringView) :
    ∀ later : List Call, (∀ c ∈ later, c.key ≠ option.key) →
      option.params (m.parsed
        (before ++ [⟨option.key, type.toString ++ separator ++ id⟩] ++ later)).fields =
          some ⟨type, id⟩ := by
  intro later
  induction later using List.reverseRecOn with
  | nil =>
    intro _
    rw [List.append_nil]
    exact (call_takes h before type id).2
  | append_singleton later c ih =>
    intro hlater
    rw [← List.append_assoc, call_keeps h _ (hlater c (by simp))]
    exact ih fun other hother => hlater other (List.mem_append_left [c] hother)

end Option

/-- The string is taken apart as written, or rejected, after any calls; and with it as the last
value of a client's option the client uses the endpoint that it names, or none. -/
structure ParsesExactly (m : Mode) (option : ConnectionOption m.Fields) (value : StringView) :
    Prop where
  accepted : ∀ (type : ConnectionType) (id : StringView),
    value = type.toString ++ separator ++ id → ∀ before later : List Call,
      (∀ c ∈ later, c.key ≠ option.key) →
        ((m.parsed before).call ⟨option.key, value⟩).2 = none ∧
          option.params (m.parsed (before ++ [⟨option.key, value⟩] ++ later)).fields =
            some ⟨type, id⟩
  rejected : ¬ IsConnectionString value → ∀ before : List Call,
    ∃ what, (m.parsed before).call ⟨option.key, value⟩ =
      (m.parsed before, some (.exception what))
  endpoint : option.isClient = true → ∀ id : StringView,
    value = ConnectionType.kNetSocket.toString ++ separator ++ id →
      ∀ before later : List Call, (∀ c ∈ later, c.key ≠ option.key) →
        ∀ params ∈ option.params (m.parsed (before ++ [⟨option.key, value⟩] ++ later)).fields,
          ∀ network, ExactEndpoint network id
            ((createDependencyFromParams network params).run [])

end Mode

/-- Connection strings are parsed exactly, except where a client's port is not read as written. -/
theorem connection_strings_exact (m : Mode) {option : ConnectionOption m.Fields}
    (h : option ∈ m.connectionOptions) (value : StringView) :
    m.ParsesExactly option value ↔
      (option.isClient = true → ∀ id : StringView,
        value = ConnectionType.kNetSocket.toString ++ separator ++ id → PortAsWritten id) := by
  constructor
  · rintro hexact hclient id rfl
    apply exactEndpoint_iff.mp
    intro network
    have hparams := Mode.params_last h [] .kNetSocket id [] nofun
    exact hexact.endpoint hclient id rfl [] [] nofun _ hparams network
  · intro hport
    constructor
    · rintro type id rfl before later hlater
      exact ⟨(Mode.call_takes h before type id).1, Mode.params_last h before type id later hlater⟩
    · intro hother before
      exact Mode.call_rejects h before hother
    · rintro hclient id rfl before later hlater params hparams network
      rw [Mode.params_last h before .kNetSocket id later hlater] at hparams
      cases hparams
      exact exactEndpoint_iff.mpr (hport hclient id rfl) network

theorem connection_strings_exact_sample :
    Mode.consumer.ParsesExactly ConsumerArguments.measurer
      (Text.bytes "netsock://localhost:8080") := by
  have hmem : ConsumerArguments.measurer ∈ Mode.consumer.connectionOptions :=
    List.mem_cons_of_mem _ List.mem_cons_self
  refine (connection_strings_exact .consumer hmem _).mpr fun _ id hid host port heq hhost v _ => ?_
  have hwhole : ConnectionType.kNetSocket.toString ++ separator ++
      (Text.bytes "localhost" ++ 58 :: Text.bytes "8080") =
        ConnectionType.kNetSocket.toString ++ separator ++ id := hid
  rw [← List.append_cancel_left hwhole] at heq
  obtain ⟨rfl, rfl⟩ := split_unique (by decide) hhost heq
  have hdigits : ∀ b ∈ Text.bytes "8080", Decimal.isDigit b := List.all_eq_true.mp rfl
  exact ⟨by decide, 8080, Decimal.denotes_iff.mpr ⟨by decide, hdigits, rfl⟩, by decide⟩

/-- A network where every name is the local host and every connection succeeds. -/
def localNetwork : Network :=
  ⟨true, [⟨fun _ => some [127, 0, 0, 1], fun _ => true, fun _ => .ok true⟩]⟩

def largePort : StringView := Text.bytes "netsock://localhost:70000"

/-- The producer's client goes to port 4464, the low half of the number that is written. -/
theorem large_port_truncated :
    (∃ params, ProducerArguments.measurer.params
        (Mode.producer.parsed [⟨ProducerArguments.kMeasurer, largePort⟩]).fields = some params ∧
      connects ((createDependencyFromParams localNetwork params).run []) =
        [⟨[127, 0, 0, 1], ByteOrder.bigEndian 2 4464⟩]) ∧
      ¬ Mode.producer.ParsesExactly ProducerArguments.measurer largePort := by
  have hparams : ProducerArguments.measurer.params
      (Mode.producer.parsed [⟨ProducerArguments.kMeasurer, largePort⟩]).fields =
        some ⟨.kNetSocket, Text.bytes "localhost:70000"⟩ := rfl
  have hrun : (createDependencyFromParams localNetwork
      ⟨.kNetSocket, Text.bytes "localhost:70000"⟩).run [] =
        .ok (.netSocket ⟨Text.bytes "localhost", ⟨70000, by decide⟩⟩, true)
          [⟨[127, 0, 0, 1], ByteOrder.bigEndian 2 4464⟩] := rfl
  have hother : ¬ ∃ host n, IsHostAndPort (Text.bytes "localhost:70000") host n := by
    rintro ⟨host, n, port, heq, hhost, hdenotes, hn⟩
    have hwhole : Text.bytes "localhost" ++ 58 :: Text.bytes "70000" = host ++ 58 :: port := heq
    obtain ⟨rfl, rfl⟩ := split_unique (by decide) hhost hwhole
    obtain ⟨_, _, hvalue⟩ := Decimal.denotes_iff.mp hdenotes
    have hlarge : Decimal.value (Text.bytes "70000") = 70000 := rfl
    omega
  refine ⟨⟨_, hparams, congrArg connects hrun⟩, fun h => ?_⟩
  have hexact :=
    h.endpoint rfl (Text.bytes "localhost:70000") rfl [] [] nofun _ hparams localNetwork
  rw [hrun] at hexact
  obtain ⟨what, herror⟩ := hexact.2 hother
  cases herror

end IpcChecker.CommandLine
