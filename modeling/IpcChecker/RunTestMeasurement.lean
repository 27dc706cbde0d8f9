import IpcChecker.Meeting
import IpcChecker.StatisticsReport

/-!
# A test run, from its arguments to its end

What the three processes are built with is taken from the arguments that they parsed.
With the arguments that a test run gives them, and where no call on the way to `Run` throws,
the measurement comes to its end.
-/

namespace IpcChecker.CommandLine
open Shared Endpoint Actors
set_option autoImplicit false

def sizeT.toUInt64 (v : sizeT.Value) : UInt64 := UInt64.ofNat v.val.toNat

/-- What the processes are built with: the types of their connections, the size of the chunks,
how many of them each process counts on, and the size that the Consumer's server is asked for. -/
structure Deployment where
  setup : Setup
  chunksSize : UInt64
  counts : Counts
  bufferSize : Option UInt64

/-- The types that decide the packers of a Producer; none before they are written. -/
def ProducerArguments.connectionTypes (arguments : ProducerArguments) :
    Option IpcChecker.ProducerArguments := do
  let connectionType ← arguments.connectionType
  let measurerConnectionType ← arguments.measurerConnectionType
  return ⟨connectionType, measurerConnectionType⟩

def ConsumerArguments.connectionTypes (arguments : ConsumerArguments) :
    Option IpcChecker.ConsumerArguments := do
  let connectionType ← arguments.connectionType
  let measurerConnectionType ← arguments.measurerConnectionType
  return ⟨connectionType, measurerConnectionType⟩

def AnalizerArguments.connectionTypes (arguments : AnalizerArguments) :
    Option IpcChecker.AnalizerArguments := do
  let measurerProducerConnectionType ← arguments.measurerProducerConnectionType
  let measurerConsumerConnectionType ← arguments.measurerConsumerConnectionType
  return ⟨measurerProducerConnectionType, measurerConsumerConnectionType⟩

/-- The size for the server of a Consumer, which may do without one. -/
def ConsumerArguments.bufferSize (arguments : ConsumerArguments) : Option (Option UInt64) :=
  match arguments.connectionBufferSize with
  | none => some none
  | some size => size.map fun size => some (sizeT.toUInt64 size)

/-- Three processes on one host; none where one reads a member that was never written, or where a
call that it makes before `Run` throws. -/
def deployment (system : Rendezvous.System) (host : Endianness) (alloc : UInt64 → Bool)
    (analyzer : AnalizerArguments) (consumer : ConsumerArguments) (producer : ProducerArguments) :
    Option Deployment := do
  let arrangement ← arrangementOf analyzer consumer producer
  guard (system.Permits arrangement)
  let analyzerTypes ← analyzer.connectionTypes
  let consumerTypes ← consumer.connectionTypes
  let producerTypes ← producer.connectionTypes
  let chunksSize ← producer.chunksSize
  let producerCount ← producer.chunksTotalCount
  let consumerCount ← consumer.chunksTotalCount
  let analyzerCount ← analyzer.chunksTotalCount
  let bufferSize ← consumer.bufferSize
  return {
    setup := ⟨host, host, host, producerTypes, consumerTypes, analyzerTypes, alloc⟩
    chunksSize := sizeT.toUInt64 chunksSize
    counts :=
      ⟨sizeT.toUInt64 producerCount, sizeT.toUInt64 consumerCount, sizeT.toUInt64 analyzerCount⟩
    bufferSize := bufferSize }

namespace Deployment
variable (d : Deployment)

/-- The sizes with which the servers are constructed; the Analyzer's take the default. -/
def serverBufferSize : Connection → Option UInt64
  | .consumerProducer => d.bufferSize
  | .measurerProducer => none
  | .measurerConsumer => none

/-- The vectors of all processes are reserved, and on every schedule of the four threads the
measurement comes to its end, all chunks having arrived in order and all ticks being where the
statistics are computed. -/
def Measures (medium : Connection → Medium) (buffers : Thread → Buffer)
    (readings : Thread → List TimeTick) : Prop :=
  (∀ count ∈ [d.counts.producer, d.counts.consumer, d.counts.analyzer],
    (Measurer.construct count).run () = .ok (Measurer.new count) ()) ∧
  ∃ generator,
    (SimpleRoundGenerator.new d.chunksSize d.counts.producer).run () = .ok generator () ∧
    Completes generator.msgs (readings .producer) (readings .consumer)
      (d.setup.start (fun c => (medium c).link) generator d.counts buffers readings
        fun c => (medium c).start)

/-- Where the processes came to their end, and the clock never went back, the quantiles of the
measurement were printed. -/
def Reports (medium : Connection → Medium) (buffers : Thread → Buffer)
    (readings : Thread → List TimeTick) : Prop :=
  ∀ generator,
    (SimpleRoundGenerator.new d.chunksSize d.counts.producer).run () = .ok generator () →
    ∀ es s, Run (d.setup.network.Steps fun c => (medium c).link)
      (d.setup.start (fun c => (medium c).link) generator d.counts buffers readings
        fun c => (medium c).start) es s →
      Ended (d.setup.network.Steps fun c => (medium c).link) s →
      (es.filterMap Prod.snd).Pairwise (· ≤ ·) → Reported s

end Deployment

/-- The processes of a test run, which uses one type for all connections. -/
def runTestDeployment (host : Endianness) (alloc : UInt64 → Bool) (type : ConnectionType)
    (chunksSize chunksTotalCount connectionBufferSize : sizeT.Value) : Deployment where
  setup := ⟨host, host, host, ⟨type, type⟩, ⟨type, type⟩, ⟨type, type⟩, alloc⟩
  chunksSize := sizeT.toUInt64 chunksSize
  counts := .same (sizeT.toUInt64 chunksTotalCount)
  bufferSize := sizeT.toUInt64 connectionBufferSize

section Children
variable {host : Endianness} {alloc : UInt64 → Bool}
variable {chunksSize chunksTotalCount connectionBufferSize : sizeT.Value}
variable {type : ConnectionType} {producerCpu consumerCpu : cInt.Value}
variable {analyzer : AnalizerArguments} {consumer : ConsumerArguments}
variable {producer : ProducerArguments}

theorem AnalyzerHolds.types (h : AnalyzerHolds chunksTotalCount type analyzer) :
    analyzer.connectionTypes = some ⟨type, type⟩ := by
  unfold AnalizerArguments.connectionTypes
  rw [type_of_params h.producerTicks, type_of_params h.consumerTicks]
  rfl

theorem ConsumerHolds.types
    (h : ConsumerHolds chunksTotalCount connectionBufferSize type consumerCpu consumer) :
    consumer.connectionTypes = some ⟨type, type⟩ := by
  unfold ConsumerArguments.connectionTypes
  rw [type_of_params h.data, type_of_params h.ticks]
  rfl

theorem ProducerHolds.types
    (h : ProducerHolds chunksSize chunksTotalCount connectionBufferSize type producerCpu
      producer) :
    producer.connectionTypes = some ⟨type, type⟩ := by
  unfold ProducerArguments.connectionTypes
  rw [type_of_params h.data, type_of_params h.ticks]
  rfl

theorem deployment_of_holds {system : Rendezvous.System}
    (hpermits : system.Permits (runTestArrangement type))
    (hanalyzer : AnalyzerHolds chunksTotalCount type analyzer)
    (hconsumer : ConsumerHolds chunksTotalCount connectionBufferSize type consumerCpu consumer)
    (hproducer : ProducerHolds chunksSize chunksTotalCount connectionBufferSize type producerCpu
      producer) :
    deployment system host alloc analyzer consumer producer =
      some (runTestDeployment host alloc type chunksSize chunksTotalCount
        connectionBufferSize) := by
  have hbufferSize : consumer.bufferSize = some (some (sizeT.toUInt64 connectionBufferSize)) := by
    unfold ConsumerArguments.bufferSize
    rw [Option.join_eq_some_iff.mp hconsumer.bufferSize]
    rfl
  unfold deployment
  rw [runTest_arrangement hanalyzer hconsumer hproducer, hanalyzer.types, hconsumer.types,
    hproducer.types, hproducer.size, hproducer.count, hconsumer.count, hanalyzer.count,
    hbufferSize]
  simp only [Option.bind_eq_bind, Option.bind_some, guard, if_pos hpermits]
  rfl

/-- What the processes of a test run need: chunks that fit the buffer and can be reserved, media
that fit their messages, and clocks with a reading for each chunk. -/
structure Deployment.Ready (d : Deployment) (host : Endianness) (type : ConnectionType)
    (medium : Connection → Medium) (buffers : Thread → Buffer)
    (readings : Thread → List TimeTick) : Prop where
  alloc : d.setup.alloc d.chunksSize = true
  size : 8 + d.chunksSize.toNat ≤ 10000
  reserve : d.counts.Reservable
  serves : ∀ c, Medium.Serves host (d.serverBufferSize c) type (medium c)
  fits : ∀ c, Medium.Fits (d.serverBufferSize c) type (medium c)
    (messageSize d.chunksSize.toNat c)
  buffers : ∀ i, (buffers i).Valid
  producerReadings : (readings .producer).length = d.counts.producer.toNat
  consumerReadings : (readings .consumer).length = d.counts.consumer.toNat

section Deployed
variable {d : Deployment} {medium : Connection → Medium} {buffers : Thread → Buffer}
variable {readings : Thread → List TimeTick}

theorem runTestDeployment_measures
    (hd : d = runTestDeployment host alloc type chunksSize chunksTotalCount connectionBufferSize)
    (h : d.Ready host type medium buffers readings) : d.Measures medium buffers readings := by
  subst hd
  obtain ⟨generator, hnew, _, _⟩ :=
    SimpleRoundGenerator.new_run (lt_string_of_fits h.size) h.reserve.producer ()
  exact ⟨h.reserve.construct_run, generator, hnew, completes_media ⟨rfl, rfl, rfl⟩ hnew h.buffers
    h.producerReadings h.consumerReadings h.alloc h.size (fun c => (h.serves c).empty)
    fun c => (h.serves c).hasRoom (h.fits c)⟩

theorem runTestDeployment_reports
    (hd : d = runTestDeployment host alloc type chunksSize chunksTotalCount connectionBufferSize)
    (h : d.Ready host type medium buffers readings) (hpositive : 0 < d.counts.producer.toNat) :
    d.Reports medium buffers readings := by
  subst hd
  intro generator hnew es s hrun hend hmono
  have hcarries := carries_media ⟨rfl, rfl, rfl⟩ hnew h.alloc h.size (fun c => (h.serves c).empty)
    (fun c => (h.serves c).hasRoom (h.fits c)) h.producerReadings h.consumerReadings
  exact reported_over (fun c => (medium c).refinement) (fun c b => (medium c).admits b) h.buffers
    hcarries (fun c => (h.serves c).empty.related) hpositive hrun hend hmono

end Deployed
end Children

/-- What a test run starts is built from its own numbers. -/
theorem run_test_deployed {arguments : RunTestArguments} {children : List (List StringView)}
    (program : StringView) (h : arguments.modesArguments = some children) (host : Endianness)
    (alloc : UInt64 → Bool) :
    ∃ (analyzer consumer producer : List Call) (type : ConnectionType)
      (chunksSize chunksTotalCount connectionBufferSize : sizeT.Value),
      arguments.connectionType = some type ∧ arguments.chunksSize = some chunksSize ∧
      arguments.chunksTotalCount = some chunksTotalCount ∧
      arguments.connectionBufferSize = some connectionBufferSize ∧
      children.map (fun child => launch (program :: child)) =
        [some (.analyzer, analyzer), some (.consumer, consumer), some (.producer, producer)] ∧
      ∀ system : Rendezvous.System, system.Permits (runTestArrangement type) →
        deployment system host alloc (Mode.analyzer.parsed analyzer).fields
            (Mode.consumer.parsed consumer).fields (Mode.producer.parsed producer).fields =
          some (runTestDeployment host alloc type chunksSize chunksTotalCount
            connectionBufferSize) := by
  obtain ⟨size, count, bufferSize, type, producerCpu, consumerCpu, harguments, hlaunch⟩ :=
    modesArguments_some h
  subst harguments
  exact ⟨_, _, _, type, size, count, bufferSize, rfl, rfl, rfl, rfl, hlaunch program,
    fun _ hpermits => deployment_of_holds hpermits analyzer_holds consumer_holds producer_holds⟩

def twentyBytes : sizeT.Value := ⟨20, by decide⟩

def twoChunks : sizeT.Value := ⟨2, by decide⟩

def oneRecord : sizeT.Value := ⟨32, by decide⟩

def sharedMemoryRunTest : RunTestArguments where
  chunksSize := twentyBytes
  chunksTotalCount := twoChunks
  connectionType := some .kSharedMemory
  connectionBufferSize := oneRecord
  environmentProducerCpu := firstCpu
  environmentConsumerCpu := secondCpu

/-- The rings that the servers construct, 32 bytes for the chunks. -/
def sampleMedium : Connection → Medium
  | .consumerProducer => .ring .kLittle (SPSCRingBuffer.initial 32 fun _ => 0)
  | _ => .ring .kLittle (SPSCRingBuffer.initial 4096 fun _ => 0)

theorem sampleMedium_serves :
    ∀ c, Medium.Serves .kLittle ((runTestDeployment .kLittle (fun _ => true) .kSharedMemory
      twentyBytes twoChunks oneRecord).serverBufferSize c) .kSharedMemory (sampleMedium c) := by
  have hchunks : (SharedMemoryServer.new ⟨true, true, true⟩ (some 32)).run none =
      .ok () (some ⟨SharedMemoryServer.shmemSize 32, true,
        SPSCRingBuffer.initial 32 fun _ => 0⟩) := rfl
  have hticks : (SharedMemoryServer.new ⟨true, true, true⟩ none).run none =
      .ok () (some ⟨SharedMemoryServer.shmemSize 4096, true,
        SPSCRingBuffer.initial 4096 fun _ => 0⟩) := rfl
  intro c
  cases c with
  | consumerProducer => exact .sharedMemory hchunks
  | measurerProducer => exact .sharedMemory hticks
  | measurerConsumer => exact .sharedMemory hticks

end IpcChecker.CommandLine
