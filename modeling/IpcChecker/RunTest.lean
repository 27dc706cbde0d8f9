import IpcChecker.ConnectionOptions

/-!
# The children of a test run

`runAsRunTest` prints its arguments into the command lines of an analyzer, a consumer
and a producer, which read them back. All three are accepted, hold the numbers of the
test run, and each connection has its client and its server at one address.
-/

namespace IpcChecker.CommandLine
open Shared Endpoint
set_option autoImplicit false

/-! The options that the programs give to argp. -/

namespace Mode

/-- `Convert` of the target's name. -/
def convert {σ : Type} (role : StringView) : Action σ Mode :=
  if role = Text.bytes "consumer" then pure .consumer
  else if role = Text.bytes "producer" then pure .producer
  else if role = Text.bytes "analyzer" then pure .analyzer
  else if role = Text.bytes "run_test" then pure .runTest
  else throw (.exception "Unsupported mode type")

/-- The long names of a program's options and their keys. -/
def options : Mode → List (StringView × Int)
  | .consumer =>
    [(Text.bytes "chunks-total-count", ConsumerArguments.kChunksTotalCount),
      (Text.bytes "connection", ConsumerArguments.kConnection),
      (Text.bytes "connection-buffer-size", ConsumerArguments.kConnectionBufferSize),
      (Text.bytes "measurer", ConsumerArguments.kMeasurer),
      (Text.bytes "cpu", ConsumerArguments.kCpu)]
  | .producer =>
    [(Text.bytes "chunks-size", ProducerArguments.kChunksSize),
      (Text.bytes "chunks-total-count", ProducerArguments.kChunksTotalCount),
      (Text.bytes "connection", ProducerArguments.kConnection),
      (Text.bytes "connection-buffer-size", ProducerArguments.kConnectionBufferSize),
      (Text.bytes "measurer", ProducerArguments.kMeasurer),
      (Text.bytes "cpu", ProducerArguments.kCpu)]
  | .analyzer =>
    [(Text.bytes "chunks-total-count", AnalizerArguments.kChunksTotalCount),
      (Text.bytes "measurer-producer", AnalizerArguments.kMeasurerProducer),
      (Text.bytes "measurer-consumer", AnalizerArguments.kMeasurerConsumer)]
  | .runTest =>
    [(Text.bytes "chunks-size", RunTestArguments.kChunksSize),
      (Text.bytes "chunks-total-count", RunTestArguments.kChunksTotalCount),
      (Text.bytes "connection", RunTestArguments.kConnection),
      (Text.bytes "connection-buffer-size", RunTestArguments.kConnectionBufferSize),
      (Text.bytes "environment-producer-cpu", RunTestArguments.kEnvironmentProducerCpu),
      (Text.bytes "environment-consumer-cpu", RunTestArguments.kEnvironmentConsumerCpu)]

end Mode

/-- An argument `--name=value` as argp hands it to the parser, where the name is written out. -/
def longOption (options : List (StringView × Int)) (arg : StringView) : Option Call :=
  if arg.take 2 = Text.bytes "--" then do
    let n ← Text.find (Text.bytes "=") (arg.drop 2)
    let option ← options.find? fun option => option.1 = (arg.drop 2).take n
    return ⟨option.2, (arg.drop 2).drop (n + 1)⟩
  else none

/-- `main` up to the parsing: the target, and its calls of `ParseArgument`. -/
def launch (argv : List StringView) : Option (Mode × List Call) :=
  match argv with
  | _program :: role :: args =>
    match (Mode.convert role).run () with
    | .ok mode _ => (args.mapM (longOption mode.options)).map fun calls => (mode, calls)
    | .error _ _ => none
  | _ => none

inductive ConnectionSide where
  | kConsumerProducerServer
  | kConsumerProducerClient
  | kMeasurerProducerServer
  | kMeasurerProducerClient
  | kMeasurerConsumerServer
  | kMeasurerConsumerClient
  deriving Repr, DecidableEq

def makeConnectionString (side : ConnectionSide) (type : ConnectionType) : StringView :=
  match side with
  | .kConsumerProducerServer =>
    match type with
    | .kNetSocket => type.toString ++ Text.bytes "://:8000"
    | .kPipe | .kSharedMemory | .kUnixSocket =>
      type.toString ++ Text.bytes "://ipc_checker_connection_id"
  | .kConsumerProducerClient =>
    match type with
    | .kNetSocket => type.toString ++ Text.bytes "://localhost:8000"
    | .kPipe | .kSharedMemory | .kUnixSocket =>
      type.toString ++ Text.bytes "://ipc_checker_connection_id"
  | .kMeasurerProducerServer =>
    match type with
    | .kNetSocket => type.toString ++ Text.bytes "://:8100"
    | .kPipe | .kSharedMemory | .kUnixSocket =>
      type.toString ++ Text.bytes "://ipc_checker_measurer_producer_id"
  | .kMeasurerProducerClient =>
    match type with
    | .kNetSocket => type.toString ++ Text.bytes "://localhost:8100"
    | .kPipe | .kSharedMemory | .kUnixSocket =>
      type.toString ++ Text.bytes "://ipc_checker_measurer_producer_id"
  | .kMeasurerConsumerServer =>
    match type with
    | .kNetSocket => type.toString ++ Text.bytes "://:8200"
    | .kPipe | .kSharedMemory | .kUnixSocket =>
      type.toString ++ Text.bytes "://ipc_checker_measurer_consumer_id"
  | .kMeasurerConsumerClient =>
    match type with
    | .kNetSocket => type.toString ++ Text.bytes "://localhost:8200"
    | .kPipe | .kSharedMemory | .kUnixSocket =>
      type.toString ++ Text.bytes "://ipc_checker_measurer_consumer_id"

/-- `modes_arguments`; none where a member is read that was never written. -/
def RunTestArguments.modesArguments (arguments : RunTestArguments) :
    Option (List (List StringView)) := do
  let chunksSize ← arguments.chunksSize
  let chunksTotalCount ← arguments.chunksTotalCount
  let connectionType ← arguments.connectionType
  let connectionBufferSize ← arguments.connectionBufferSize
  let environmentProducerCpu ← arguments.environmentProducerCpu
  let environmentConsumerCpu ← arguments.environmentConsumerCpu
  return [
    [Text.bytes "analyzer",
      Text.bytes "--chunks-total-count=" ++ Decimal.toString chunksTotalCount,
      Text.bytes "--measurer-producer=" ++
        makeConnectionString .kMeasurerProducerServer connectionType,
      Text.bytes "--measurer-consumer=" ++
        makeConnectionString .kMeasurerConsumerServer connectionType],
    [Text.bytes "consumer",
      Text.bytes "--chunks-total-count=" ++ Decimal.toString chunksTotalCount,
      Text.bytes "--connection=" ++ makeConnectionString .kConsumerProducerServer connectionType,
      Text.bytes "--connection-buffer-size=" ++ Decimal.toString connectionBufferSize,
      Text.bytes "--measurer=" ++ makeConnectionString .kMeasurerConsumerClient connectionType,
      Text.bytes "--cpu=" ++ Decimal.toString environmentConsumerCpu],
    [Text.bytes "producer",
      Text.bytes "--chunks-size=" ++ Decimal.toString chunksSize,
      Text.bytes "--chunks-total-count=" ++ Decimal.toString chunksTotalCount,
      Text.bytes "--connection=" ++ makeConnectionString .kConsumerProducerClient connectionType,
      Text.bytes "--connection-buffer-size=" ++ Decimal.toString connectionBufferSize,
      Text.bytes "--measurer=" ++ makeConnectionString .kMeasurerProducerClient connectionType,
      Text.bytes "--cpu=" ++ Decimal.toString environmentProducerCpu]]

theorem lastValue_of_last (before : List Call) (c : Call) {later : List Call}
    (hlater : ∀ other ∈ later, other.key ≠ c.key) :
    lastValue (before ++ [c] ++ later) c.key = some c.value := by
  induction later using List.reverseRecOn with
  | nil => rw [List.append_nil, lastValue_append, if_pos rfl]
  | append_singleton later other ih =>
    rw [← List.append_assoc, lastValue_append, if_neg (hlater other (by simp))]
    exact ih fun d hd => hlater d (List.mem_append_left [other] hd)

/-- The command line is taken without an exception, and no required option is missing. -/
def Mode.Accepted (m : Mode) (calls : List Call) : Prop :=
  (∀ e ∈ (m.parse calls).2, e.2 = none) ∧
    (m.parse calls).1.hasNotParsedRequiredArguments = false

/-- The id in the connection string of a side. -/
def connectionId (side : ConnectionSide) (type : ConnectionType) : StringView :=
  (makeConnectionString side type).drop (type.toString.length + 3)

/-- Every string is a connection string of the type. -/
theorem makeConnectionString_eq (side : ConnectionSide) (type : ConnectionType) :
    makeConnectionString side type = type.toString ++ separator ++ connectionId side type := by
  cases side <;> cases type <;> rfl

theorem isConnectionString_make (side : ConnectionSide) (type : ConnectionType) :
    IsConnectionString (makeConnectionString side type) :=
  ⟨type, connectionId side type, makeConnectionString_eq side type⟩

/-- Every option of the program once, in the order of its table. -/
def Mode.GivenOnce (m : Mode) (calls : List Call) : Prop :=
  calls.map Call.key = m.items.map Item.key

namespace Mode.GivenOnce
variable {m : Mode} {calls : List Call} (h : m.GivenOnce calls)
include h

theorem accepted (hgood : ∀ c ∈ calls, m.WellFormed c) : m.Accepted calls := by
  have hknown : ∀ c ∈ calls, c.key ∈ m.items.map Item.key := by
    intro c hc
    rw [← h]
    exact List.mem_map_of_mem hc
  have hnone := (no_failure_iff hknown).mpr hgood
  refine ⟨hnone, not_missing_iff_accepted.mpr fun i hi _ => ?_⟩
  have hkey : i.key ∈ calls.map Call.key := by
    rw [h]
    exact List.mem_map_of_mem hi
  obtain ⟨c, hc, hckey⟩ := List.mem_map.mp hkey
  obtain ⟨failure, hmem⟩ := mem_parse_inputs hc
  obtain rfl : failure = none := hnone _ hmem
  exact ⟨c, hckey, hmem⟩

/-- The calls after one of them are of other options. -/
theorem split {c : Call} (hc : c ∈ calls) :
    ∃ before later, calls = before ++ [c] ++ later ∧ ∀ other ∈ later, other.key ≠ c.key := by
  obtain ⟨before, later, rfl⟩ := List.append_of_mem hc
  refine ⟨before, later, by simp, ?_⟩
  intro other hother hkey
  have hnodup := m.keys_nodup
  rw [← h, List.map_append, List.map_cons] at hnodup
  have hhead := (List.nodup_cons.mp hnodup.of_append_right).1
  exact hhead (hkey ▸ List.mem_map_of_mem hother)

/-- A number that was printed for an option is what the option's field holds. -/
theorem number {field : NumericField m.Fields} (hfield : field ∈ m.numericFields)
    {v : field.type.Value} (hsigned : v.val < 0 → field.type.signed = true)
    (hc : ⟨field.key, Decimal.toString v⟩ ∈ calls) :
    field.get (m.parsed calls).fields = some v := by
  obtain ⟨before, later, hcalls, hlater⟩ := h.split hc
  have hlast : lastValue calls field.key = some (Decimal.toString v) := by
    rw [hcalls]
    exact lastValue_of_last before _ hlater
  have hstored := (m.parse_invariant calls).stored field hfield (Decimal.toString v) v
  rw [m.parse_inputs calls] at hstored
  exact hstored hlast (Decimal.numeral_toString v hsigned)

theorem size {key : Int} {get : m.Fields → Option sizeT.Value}
    (hfield : ⟨key, sizeT, get⟩ ∈ m.numericFields) {v : sizeT.Value}
    (hc : ⟨key, Decimal.toString v⟩ ∈ calls) : get (m.parsed calls).fields = some v := by
  have hnonneg : ¬ v.val < 0 := not_lt.mpr v.property.1
  exact h.number hfield (fun hneg => absurd hneg hnonneg) hc

theorem cpu {key : Int} {get : m.Fields → Option cInt.Value}
    (hfield : ⟨key, cInt, get⟩ ∈ m.numericFields) {v : cInt.Value}
    (hc : ⟨key, Decimal.toString v⟩ ∈ calls) : get (m.parsed calls).fields = some v :=
  h.number hfield (fun _ => rfl) hc

/-- The connection string of a side comes apart into its type and its id. -/
theorem params (option : ConnectionOption m.Fields) (hoption : option ∈ m.connectionOptions)
    {side : ConnectionSide} {type : ConnectionType}
    (hc : ⟨option.key, makeConnectionString side type⟩ ∈ calls) :
    option.params (m.parsed calls).fields = some ⟨type, connectionId side type⟩ := by
  obtain ⟨before, later, hcalls, hlater⟩ := h.split hc
  rw [hcalls, makeConnectionString_eq]
  exact params_last hoption before type (connectionId side type) later hlater

end Mode.GivenOnce

theorem Mode.number_wellFormed {m : Mode} {key : Int} (h : key ∉ m.connectionKeys)
    (value : StringView) : m.WellFormed ⟨key, value⟩ := fun hkey => absurd hkey h

theorem Mode.connection_wellFormed {m : Mode} (h : m.ConnectionForm = IsConnectionString)
    (key : Int) (side : ConnectionSide) (type : ConnectionType) :
    m.WellFormed ⟨key, makeConnectionString side type⟩ := by
  intro _
  rw [h]
  exact isConnectionString_make side type

/-- Where the two ends of a connection look for each other. -/
inductive Place where
  | socket (host : StringView) (port : Int)
  | named (type : ConnectionType) (id : StringView)
  deriving DecidableEq

/-- None where the id of a network connection is no host and port. -/
def placeOf (params : ConnectionParams) : Option Place :=
  match params.type with
  | .kNetSocket =>
    match (parseHostAndPort params.id).run () with
    | .ok hostAndPort _ => some (.socket hostAndPort.host hostAndPort.port)
    | .error _ _ => none
  | type => some (.named type params.id)

/-- The client looks for the server where it is; a server takes a port on all its hosts. -/
def Joined (client server : Option ConnectionParams) : Prop :=
  (∃ port, client.bind placeOf = some (.socket (Text.bytes "localhost") port) ∧
      server.bind placeOf = some (.socket [] port)) ∨
    ∃ type id, client.bind placeOf = some (.named type id) ∧
      server.bind placeOf = some (.named type id)

/-- The processes have the numbers of the test run, and their connections pair up, each at a
place of its own. -/
structure Wired (arguments : RunTestArguments) (analyzer : AnalizerArguments)
    (consumer : ConsumerArguments) (producer : ProducerArguments) : Prop where
  chunksSize : producer.chunksSize = arguments.chunksSize
  analyzerCount : analyzer.chunksTotalCount = arguments.chunksTotalCount
  consumerCount : consumer.chunksTotalCount = arguments.chunksTotalCount
  producerCount : producer.chunksTotalCount = arguments.chunksTotalCount
  consumerBufferSize : consumer.connectionBufferSize.join = arguments.connectionBufferSize
  producerBufferSize : producer.connectionBufferSize.join = arguments.connectionBufferSize
  consumerCpu : consumer.cpu = arguments.environmentConsumerCpu
  producerCpu : producer.cpu = arguments.environmentProducerCpu
  types : ∀ type ∈ [analyzer.measurerProducerConnectionType,
    analyzer.measurerConsumerConnectionType, consumer.connectionType,
    consumer.measurerConnectionType, producer.connectionType, producer.measurerConnectionType],
    type = arguments.connectionType
  data : Joined producer.consumerProducerConnectionClientParams
    consumer.consumerProducerConnectionServerParams
  producerTicks : Joined producer.measurerProducerConnectionClientParams
    analyzer.measurerProducerConnectionServerParams
  consumerTicks : Joined consumer.measurerConsumerConnectionClientParams
    analyzer.measurerConsumerConnectionServerParams
  apart : [consumer.consumerProducerConnectionServerParams.bind placeOf,
    analyzer.measurerProducerConnectionServerParams.bind placeOf,
    analyzer.measurerConsumerConnectionServerParams.bind placeOf].Nodup

section Children
variable (chunksSize chunksTotalCount connectionBufferSize : sizeT.Value)
variable (connectionType : ConnectionType) (cpu : cInt.Value)

/-! The calls of `ParseArgument` in the children. -/

def analyzerCalls : List Call :=
  [⟨AnalizerArguments.kChunksTotalCount, Decimal.toString chunksTotalCount⟩,
    ⟨AnalizerArguments.kMeasurerProducer,
      makeConnectionString .kMeasurerProducerServer connectionType⟩,
    ⟨AnalizerArguments.kMeasurerConsumer,
      makeConnectionString .kMeasurerConsumerServer connectionType⟩]

def consumerCalls : List Call :=
  [⟨ConsumerArguments.kChunksTotalCount, Decimal.toString chunksTotalCount⟩,
    ⟨ConsumerArguments.kConnection, makeConnectionString .kConsumerProducerServer connectionType⟩,
    ⟨ConsumerArguments.kConnectionBufferSize, Decimal.toString connectionBufferSize⟩,
    ⟨ConsumerArguments.kMeasurer, makeConnectionString .kMeasurerConsumerClient connectionType⟩,
    ⟨ConsumerArguments.kCpu, Decimal.toString cpu⟩]

def producerCalls : List Call :=
  [⟨ProducerArguments.kChunksSize, Decimal.toString chunksSize⟩,
    ⟨ProducerArguments.kChunksTotalCount, Decimal.toString chunksTotalCount⟩,
    ⟨ProducerArguments.kConnection, makeConnectionString .kConsumerProducerClient connectionType⟩,
    ⟨ProducerArguments.kConnectionBufferSize, Decimal.toString connectionBufferSize⟩,
    ⟨ProducerArguments.kMeasurer, makeConnectionString .kMeasurerProducerClient connectionType⟩,
    ⟨ProducerArguments.kCpu, Decimal.toString cpu⟩]

theorem analyzerCalls_once :
    Mode.analyzer.GivenOnce (analyzerCalls chunksTotalCount connectionType) := rfl

theorem consumerCalls_once : Mode.consumer.GivenOnce
    (consumerCalls chunksTotalCount connectionBufferSize connectionType cpu) := rfl

theorem producerCalls_once : Mode.producer.GivenOnce
    (producerCalls chunksSize chunksTotalCount connectionBufferSize connectionType cpu) := rfl

theorem analyzer_accepts :
    Mode.analyzer.Accepted (analyzerCalls chunksTotalCount connectionType) := by
  apply (analyzerCalls_once _ _).accepted
  intro c hc
  unfold analyzerCalls at hc
  fin_cases hc
  · exact Mode.number_wellFormed (by decide) _
  · exact Mode.connection_wellFormed rfl _ _ _
  · exact Mode.connection_wellFormed rfl _ _ _

theorem consumer_accepts : Mode.consumer.Accepted
    (consumerCalls chunksTotalCount connectionBufferSize connectionType cpu) := by
  apply (consumerCalls_once _ _ _ _).accepted
  intro c hc
  unfold consumerCalls at hc
  fin_cases hc
  · exact Mode.number_wellFormed (by decide) _
  · exact Mode.connection_wellFormed rfl _ _ _
  · exact Mode.number_wellFormed (by decide) _
  · exact Mode.connection_wellFormed rfl _ _ _
  · exact Mode.number_wellFormed (by decide) _

theorem producer_accepts : Mode.producer.Accepted
    (producerCalls chunksSize chunksTotalCount connectionBufferSize connectionType cpu) := by
  apply (producerCalls_once _ _ _ _ _).accepted
  intro c hc
  unfold producerCalls at hc
  fin_cases hc
  · exact Mode.number_wellFormed (by decide) _
  · exact Mode.number_wellFormed (by decide) _
  · exact Mode.connection_wellFormed rfl _ _ _
  · exact Mode.number_wellFormed (by decide) _
  · exact Mode.connection_wellFormed rfl _ _ _
  · exact Mode.number_wellFormed (by decide) _

/-! What the children hold. -/

/-- What an analyzer holds after its calls. -/
structure AnalyzerHolds (fields : AnalizerArguments) : Prop where
  count : fields.chunksTotalCount = some chunksTotalCount
  producerTicks : AnalizerArguments.measurerProducer.params fields =
    some ⟨connectionType, connectionId .kMeasurerProducerServer connectionType⟩
  consumerTicks : AnalizerArguments.measurerConsumer.params fields =
    some ⟨connectionType, connectionId .kMeasurerConsumerServer connectionType⟩

structure ConsumerHolds (fields : ConsumerArguments) : Prop where
  count : fields.chunksTotalCount = some chunksTotalCount
  bufferSize : fields.connectionBufferSize.join = some connectionBufferSize
  cpu : fields.cpu = some cpu
  data : ConsumerArguments.connection.params fields =
    some ⟨connectionType, connectionId .kConsumerProducerServer connectionType⟩
  ticks : ConsumerArguments.measurer.params fields =
    some ⟨connectionType, connectionId .kMeasurerConsumerClient connectionType⟩

structure ProducerHolds (fields : ProducerArguments) : Prop where
  size : fields.chunksSize = some chunksSize
  count : fields.chunksTotalCount = some chunksTotalCount
  bufferSize : fields.connectionBufferSize.join = some connectionBufferSize
  cpu : fields.cpu = some cpu
  data : ProducerArguments.connection.params fields =
    some ⟨connectionType, connectionId .kConsumerProducerClient connectionType⟩
  ticks : ProducerArguments.measurer.params fields =
    some ⟨connectionType, connectionId .kMeasurerProducerClient connectionType⟩

variable {chunksSize chunksTotalCount connectionBufferSize connectionType cpu}

theorem analyzer_holds : AnalyzerHolds chunksTotalCount connectionType
    (Mode.analyzer.parsed (analyzerCalls chunksTotalCount connectionType)).fields := by
  have h := analyzerCalls_once chunksTotalCount connectionType
  constructor
  · exact h.size (List.mem_of_getElem? (i := 0) rfl) (List.mem_of_getElem? (i := 0) rfl)
  · exact h.params AnalizerArguments.measurerProducer
      (List.mem_of_getElem? (i := 0) rfl) (List.mem_of_getElem? (i := 1) rfl)
  · exact h.params AnalizerArguments.measurerConsumer
      (List.mem_of_getElem? (i := 1) rfl) (List.mem_of_getElem? (i := 2) rfl)

theorem consumer_holds :
    ConsumerHolds chunksTotalCount connectionBufferSize connectionType cpu (Mode.consumer.parsed
      (consumerCalls chunksTotalCount connectionBufferSize connectionType cpu)).fields := by
  have h := consumerCalls_once chunksTotalCount connectionBufferSize connectionType cpu
  constructor
  · exact h.size (List.mem_of_getElem? (i := 0) rfl) (List.mem_of_getElem? (i := 0) rfl)
  · exact h.size (List.mem_of_getElem? (i := 1) rfl) (List.mem_of_getElem? (i := 2) rfl)
  · exact h.cpu (List.mem_of_getElem? (i := 2) rfl) (List.mem_of_getElem? (i := 4) rfl)
  · exact h.params ConsumerArguments.connection
      (List.mem_of_getElem? (i := 0) rfl) (List.mem_of_getElem? (i := 1) rfl)
  · exact h.params ConsumerArguments.measurer
      (List.mem_of_getElem? (i := 1) rfl) (List.mem_of_getElem? (i := 3) rfl)

theorem producer_holds :
    ProducerHolds chunksSize chunksTotalCount connectionBufferSize connectionType cpu
      (Mode.producer.parsed (producerCalls chunksSize chunksTotalCount connectionBufferSize
        connectionType cpu)).fields := by
  have h := producerCalls_once chunksSize chunksTotalCount connectionBufferSize connectionType cpu
  constructor
  · exact h.size (List.mem_of_getElem? (i := 0) rfl) (List.mem_of_getElem? (i := 0) rfl)
  · exact h.size (List.mem_of_getElem? (i := 1) rfl) (List.mem_of_getElem? (i := 1) rfl)
  · exact h.size (List.mem_of_getElem? (i := 2) rfl) (List.mem_of_getElem? (i := 3) rfl)
  · exact h.cpu (List.mem_of_getElem? (i := 3) rfl) (List.mem_of_getElem? (i := 5) rfl)
  · exact h.params ProducerArguments.connection
      (List.mem_of_getElem? (i := 0) rfl) (List.mem_of_getElem? (i := 2) rfl)
  · exact h.params ProducerArguments.measurer
      (List.mem_of_getElem? (i := 1) rfl) (List.mem_of_getElem? (i := 4) rfl)

end Children

/-! The connections, once the children hold their strings. -/

theorem type_of_params {type : Option ConnectionType} {id : StringView} {params : ConnectionParams}
    (h : type.map (fun type => ⟨type, id⟩) = some params) : type = some params.type := by
  obtain ⟨held, htype, hparams⟩ := Option.map_eq_some_iff.mp h
  rw [htype, ← hparams]

theorem sides_joined (type : ConnectionType) : ∀ sides ∈
    [(ConnectionSide.kConsumerProducerClient, ConnectionSide.kConsumerProducerServer),
      (.kMeasurerProducerClient, .kMeasurerProducerServer),
      (.kMeasurerConsumerClient, .kMeasurerConsumerServer)],
    Joined (some ⟨type, connectionId sides.1 type⟩) (some ⟨type, connectionId sides.2 type⟩) := by
  intro sides hsides
  fin_cases hsides <;> cases type <;>
    first
    | exact .inl ⟨_, rfl, rfl⟩
    | exact .inr ⟨_, _, rfl, rfl⟩

theorem servers_apart (type : ConnectionType) :
    ([ConnectionSide.kConsumerProducerServer, .kMeasurerProducerServer,
      .kMeasurerConsumerServer].map fun side => placeOf ⟨type, connectionId side type⟩).Nodup := by
  cases type <;> decide

theorem wired_of_holds {arguments : RunTestArguments} {analyzer : AnalizerArguments}
    {consumer : ConsumerArguments} {producer : ProducerArguments}
    {chunksSize chunksTotalCount connectionBufferSize : sizeT.Value} {type : ConnectionType}
    {producerCpu consumerCpu : cInt.Value}
    (h : arguments = ⟨chunksSize, chunksTotalCount, type, connectionBufferSize, producerCpu,
      consumerCpu⟩)
    (hanalyzer : AnalyzerHolds chunksTotalCount type analyzer)
    (hconsumer : ConsumerHolds chunksTotalCount connectionBufferSize type consumerCpu consumer)
    (hproducer : ProducerHolds chunksSize chunksTotalCount connectionBufferSize type producerCpu
      producer) : Wired arguments analyzer consumer producer := by
  subst h
  constructor
  case types =>
    intro held hheld
    fin_cases hheld
    · exact type_of_params hanalyzer.producerTicks
    · exact type_of_params hanalyzer.consumerTicks
    · exact type_of_params hconsumer.data
    · exact type_of_params hconsumer.ticks
    · exact type_of_params hproducer.data
    · exact type_of_params hproducer.ticks
  case data =>
    have hjoined := sides_joined type _ (List.mem_of_getElem? (i := 0) rfl)
    rwa [← hconsumer.data, ← hproducer.data] at hjoined
  case producerTicks =>
    have hjoined := sides_joined type _ (List.mem_of_getElem? (i := 1) rfl)
    rwa [← hanalyzer.producerTicks, ← hproducer.ticks] at hjoined
  case consumerTicks =>
    have hjoined := sides_joined type _ (List.mem_of_getElem? (i := 2) rfl)
    rwa [← hanalyzer.consumerTicks, ← hconsumer.ticks] at hjoined
  case apart =>
    have hdata : consumer.consumerProducerConnectionServerParams = _ := hconsumer.data
    have hproducerTicks : analyzer.measurerProducerConnectionServerParams = _ :=
      hanalyzer.producerTicks
    have hconsumerTicks : analyzer.measurerConsumerConnectionServerParams = _ :=
      hanalyzer.consumerTicks
    rw [hdata, hproducerTicks, hconsumerTicks]
    exact servers_apart type
  · exact hproducer.size
  · exact hanalyzer.count
  · exact hconsumer.count
  · exact hproducer.count
  · exact hconsumer.bufferSize
  · exact hproducer.bufferSize
  · exact hconsumer.cpu
  · exact hproducer.cpu

/-- The children are printed once every member that is read has been written. -/
theorem modesArguments_some {arguments : RunTestArguments} {children : List (List StringView)}
    (h : arguments.modesArguments = some children) :
    ∃ (chunksSize chunksTotalCount connectionBufferSize : sizeT.Value) (type : ConnectionType)
      (producerCpu consumerCpu : cInt.Value),
      arguments = ⟨chunksSize, chunksTotalCount, type, connectionBufferSize, producerCpu,
        consumerCpu⟩ ∧
      ∀ program : StringView, children.map (fun child => launch (program :: child)) =
        [some (.analyzer, analyzerCalls chunksTotalCount type),
          some (.consumer, consumerCalls chunksTotalCount connectionBufferSize type consumerCpu),
          some (.producer,
            producerCalls chunksSize chunksTotalCount connectionBufferSize type producerCpu)] := by
  unfold RunTestArguments.modesArguments at h
  simp only [Option.bind_eq_bind, Option.bind_eq_some_iff] at h
  obtain ⟨size, hsize, count, hcount, type, htype, bufferSize, hbufferSize, producerCpu,
    hproducerCpu, consumerCpu, hconsumerCpu, hchildren⟩ := h
  cases hchildren
  refine ⟨size, count, bufferSize, type, producerCpu, consumerCpu, ?_, fun _ => rfl⟩
  rw [← hsize, ← hcount, ← htype, ← hbufferSize, ← hproducerCpu, ← hconsumerCpu]

/-- Every child of a test run is started, whatever numbers the run was given. -/
theorem run_test_children {arguments : RunTestArguments} {children : List (List StringView)}
    (program : StringView) (h : arguments.modesArguments = some children) :
    ∃ analyzer consumer producer : List Call,
      children.map (fun child => launch (program :: child)) =
        [some (.analyzer, analyzer), some (.consumer, consumer), some (.producer, producer)] ∧
      Mode.analyzer.Accepted analyzer ∧ Mode.consumer.Accepted consumer ∧
      Mode.producer.Accepted producer ∧
      Wired arguments (Mode.analyzer.parsed analyzer).fields (Mode.consumer.parsed consumer).fields
        (Mode.producer.parsed producer).fields := by
  obtain ⟨chunksSize, chunksTotalCount, connectionBufferSize, type, producerCpu, consumerCpu,
    harguments, hlaunch⟩ := modesArguments_some h
  exact ⟨_, _, _, hlaunch program, analyzer_accepts _ _, consumer_accepts _ _ _ _,
    producer_accepts _ _ _ _ _,
    wired_of_holds harguments analyzer_holds consumer_holds producer_holds⟩

def firstCpu : cInt.Value := ⟨2, by decide⟩

def secondCpu : cInt.Value := ⟨3, by decide⟩

/-- A run over network sockets on two processors. -/
def sampleRunTest : RunTestArguments where
  chunksSize := some ⟨64, by decide⟩
  chunksTotalCount := some ⟨1000, by decide⟩
  connectionType := some .kNetSocket
  connectionBufferSize := some ⟨4096, by decide⟩
  environmentProducerCpu := firstCpu
  environmentConsumerCpu := secondCpu

theorem run_test_children_sample :
    ∃ children, sampleRunTest.modesArguments = some children ∧
      ∃ analyzer consumer producer : List Call,
        children.map (fun child => launch (Text.bytes "ipc_checker" :: child)) =
          [some (.analyzer, analyzer), some (.consumer, consumer), some (.producer, producer)] ∧
        Mode.analyzer.Accepted analyzer ∧ Mode.consumer.Accepted consumer ∧
        Mode.producer.Accepted producer ∧
        Wired sampleRunTest (Mode.analyzer.parsed analyzer).fields
          (Mode.consumer.parsed consumer).fields (Mode.producer.parsed producer).fields := by
  refine ⟨_, rfl, ?_⟩
  exact run_test_children (Text.bytes "ipc_checker") rfl

end IpcChecker.CommandLine
