import IpcChecker.Generator
import IpcChecker.MeasurerConnections
import IpcChecker.Shared.Schedules

/-!
# The actors

`Run` of Producer and Consumer and the two worker threads of `Analyzer::Run`, each as
a process that stands at one statement of its loops. Three connections lie between
them. An exception ends the thread it is thrown in.
-/

namespace IpcChecker.Actors
open Shared
set_option autoImplicit false

inductive Connection where
  | consumerProducer
  | measurerProducer
  | measurerConsumer
  deriving Repr, DecidableEq

inductive Thread where
  | producer
  | consumer
  | consumerWorker
  | producerWorker
  deriving Repr, DecidableEq

abbrev ActorRequest (σ : Type) : Type := Request Connection Buffer Failure TimeTick σ

/-! The loop with which Producer and Consumer send their ticks. -/

inductive TickStage where
  | toFirst
  | hasNext
  | reset
  | pack
  | send
  | finished
  | failed (e : Failure)

structure TickSender where
  measurer : Measurer
  buffer : Buffer
  stage : TickStage

/-- `Next` past the end is undefined, and fails here. -/
def TickSender.request (host : Endianness) (measurerConnectionPacker : Packer)
    (measurerConnection : Connection) (t : TickSender) : ActorRequest TickSender :=
  match t.stage with
  | .toFirst => .internal { t with measurer := t.measurer.toFirst, stage := .hasNext }
  | .hasNext => .internal { t with stage := if t.measurer.hasNext then .reset else .finished }
  | .reset => .internal { t with buffer := t.buffer.reset, stage := .pack }
  | .pack =>
    match t.measurer.next with
    | none => .internal { t with stage := .failed .assertion }
    | some (tick, measurer) =>
      match (measurerConnectionPacker.serializeTimePoint host tick).run t.buffer with
      | .ok _ buffer => .internal { measurer, buffer, stage := .send }
      | .error e buffer => .internal { measurer, buffer, stage := .failed e }
  | .send => .send measurerConnection t.buffer fun
    | .ok _ => { t with stage := .hasNext }
    | .error e => { t with stage := .failed e }
  | .finished => .halt
  | .failed _ => .halt

inductive ProducerStage where
  | toFirst
  | hasNext
  | tick
  | reset
  | pack
  | send
  | failed (e : Failure)
  | ticks (stage : TickStage)

structure Producer where
  generator : SimpleRoundGenerator
  measurer : Measurer
  buffer : Buffer
  stage : ProducerStage

namespace Producer

def withTicks (p : Producer) (t : TickSender) : Producer :=
  { p with measurer := t.measurer, buffer := t.buffer, stage := .ticks t.stage }

def request (host : Endianness) (consumerConnectionPacker measurerConnectionPacker : Packer)
    (p : Producer) : ActorRequest Producer :=
  match p.stage with
  | .toFirst => .internal { p with generator := p.generator.toFirst, stage := .hasNext }
  | .hasNext => .internal { p with stage := if p.generator.hasNext then .tick else .ticks .toFirst }
  | .tick => .clock fun now => { p with measurer := p.measurer.tick now, stage := .reset }
  | .reset => .internal { p with buffer := p.buffer.reset, stage := .pack }
  | .pack =>
    match p.generator.next with
    | none => .internal { p with stage := .failed .assertion }
    | some (msg, generator) =>
      match (consumerConnectionPacker.serializeString host msg).run p.buffer with
      | .ok _ buffer => .internal { p with generator, buffer, stage := .send }
      | .error e buffer => .internal { p with generator, buffer, stage := .failed e }
  | .send => .send .consumerProducer p.buffer fun
    | .ok _ => { p with stage := .hasNext }
    | .error e => { p with stage := .failed e }
  | .failed _ => .halt
  | .ticks stage =>
    (TickSender.request host measurerConnectionPacker .measurerProducer
      ⟨p.measurer, p.buffer, stage⟩).map p.withTicks

end Producer

inductive ConsumerStage where
  | isFull
  | reset
  | receive
  | unpack
  | tick
  | failed (e : Failure)
  | ticks (stage : TickStage)

/-- `messages` lists the strings unpacked so far. -/
structure Consumer where
  measurer : Measurer
  buffer : Buffer
  messages : List StdString
  stage : ConsumerStage

namespace Consumer

def withTicks (c : Consumer) (t : TickSender) : Consumer :=
  { c with measurer := t.measurer, buffer := t.buffer, stage := .ticks t.stage }

def request (host : Endianness) (alloc : UInt64 → Bool)
    (producerConnectionPacker measurerConnectionPacker : Packer) (c : Consumer) :
    ActorRequest Consumer :=
  match c.stage with
  | .isFull => .internal { c with stage := if c.measurer.isFull then .ticks .toFirst else .reset }
  | .reset => .internal { c with buffer := c.buffer.reset, stage := .receive }
  | .receive => .receive .consumerProducer c.buffer fun
    | .ok buffer => { c with buffer, stage := .unpack }
    | .error e => { c with stage := .failed e }
  | .unpack =>
    match (producerConnectionPacker.deserializeString host alloc).run c.buffer with
    | .ok msg buffer => .internal { c with buffer, messages := c.messages ++ [msg], stage := .tick }
    | .error e buffer => .internal { c with buffer, stage := .failed e }
  | .tick => .clock fun now => { c with measurer := c.measurer.tick now, stage := .isFull }
  | .failed _ => .halt
  | .ticks stage =>
    (TickSender.request host measurerConnectionPacker .measurerConsumer
      ⟨c.measurer, c.buffer, stage⟩).map c.withTicks

end Consumer

inductive WorkerStage where
  | isFull
  | reset
  | receive
  | unpack
  | pushBack (tp : TimeTick)
  | finished
  | failed (e : Failure)

/-- One of the Analyzer's two threads, which have one body. -/
structure Worker where
  measurer : Measurer
  buffer : Buffer
  stage : WorkerStage

def Worker.request (host : Endianness) (packer : Packer) (connection : Connection) (w : Worker) :
    ActorRequest Worker :=
  match w.stage with
  | .isFull => .internal { w with stage := if w.measurer.isFull then .finished else .reset }
  | .reset => .internal { w with buffer := w.buffer.reset, stage := .receive }
  | .receive => .receive connection w.buffer fun
    | .ok buffer => { w with buffer, stage := .unpack }
    | .error e => { w with stage := .failed e }
  | .unpack =>
    match (packer.deserializeTimePoint host).run w.buffer with
    | .ok tp buffer => .internal { w with buffer, stage := .pushBack tp }
    | .error e buffer => .internal { w with buffer, stage := .failed e }
  | .pushBack tp => .internal { w with measurer := w.measurer.pushBack tp, stage := .isFull }
  | .finished => .halt
  | .failed _ => .halt

/-- The hosts of the three processes and the types of their connections; `alloc` says which
sizes of strings can be allocated. -/
structure Setup where
  producerHost : Endianness
  consumerHost : Endianness
  analyzerHost : Endianness
  producer : ProducerArguments
  consumer : ConsumerArguments
  analyzer : AnalizerArguments
  alloc : UInt64 → Bool

namespace Setup
variable (setup : Setup)

/-! The packers that each process selects. -/

def consumerConnectionPacker : Packer :=
  createPacker setup.producerHost setup.producer.connectionType

def producerMeasurerConnectionPacker : Packer :=
  createPacker setup.producerHost setup.producer.measurerProducerConnectionPackerParams

def producerConnectionPacker : Packer :=
  createPacker setup.consumerHost setup.consumer.connectionType

def consumerMeasurerConnectionPacker : Packer :=
  createPacker setup.consumerHost setup.consumer.measurerConsumerConnectionPackerParams

/-- The packers of the Analyzer's workers, as `CreateAnalyzer` hands them over. -/
def analyzerPackers : AnalyzerPackers := createAnalyzer setup.analyzerHost setup.analyzer

/-- What the thread of a process holds. -/
def Local : Thread → Type
  | .producer => Producer
  | .consumer => Consumer
  | .consumerWorker => Worker
  | .producerWorker => Worker

def request : (i : Thread) → Local i → ActorRequest (Local i)
  | .producer => Producer.request setup.producerHost setup.consumerConnectionPacker
      setup.producerMeasurerConnectionPacker
  | .consumer => Consumer.request setup.consumerHost setup.alloc setup.producerConnectionPacker
      setup.consumerMeasurerConnectionPacker
  | .consumerWorker => Worker.request setup.analyzerHost
      setup.analyzerPackers.consumerMeasurerConnectionPacker .measurerConsumer
  | .producerWorker => Worker.request setup.analyzerHost
      setup.analyzerPackers.producerMeasurerConnectionPacker .measurerProducer

/-- The client's end of a connection, and the server's. -/
def client : Connection → Thread
  | .consumerProducer => .producer
  | .measurerProducer => .producer
  | .measurerConsumer => .consumer

def server : Connection → Thread
  | .consumerProducer => .consumer
  | .measurerProducer => .producerWorker
  | .measurerConsumer => .consumerWorker

end Setup

/-! Every connection is used by its own two threads only. -/

section Ends
variable {host : Endianness} {packer packer' : Packer} {c connection : Connection} {b : Buffer}

theorem TickSender.sends {t : TickSender} {next : Except Failure Unit → TickSender}
    (h : t.request host packer connection = .send c b next) : c = connection := by
  unfold TickSender.request at h
  split at h
  case h_4 =>
    split at h
    · cases h
    · split at h
      · cases h
      · cases h
  case h_5 =>
    cases h
    rfl
  all_goals cases h

theorem TickSender.never_receives {t : TickSender} {next : Except Failure Buffer → TickSender} :
    t.request host packer connection ≠ .receive c b next := by
  intro h
  unfold TickSender.request at h
  split at h
  case h_4 =>
    split at h
    · cases h
    · split at h
      · cases h
      · cases h
  all_goals cases h

theorem Producer.sends {p : Producer} {next : Except Failure Unit → Producer}
    (h : p.request host packer packer' = .send c b next) : Setup.client c = .producer := by
  unfold Producer.request at h
  split at h
  case h_5 =>
    split at h
    · cases h
    · split at h
      · cases h
      · cases h
  case h_6 =>
    cases h
    rfl
  case h_8 =>
    obtain ⟨_, hsend, _⟩ := Request.of_map_send h
    rw [TickSender.sends hsend]
    rfl
  all_goals cases h

theorem Producer.never_receives {p : Producer} {next : Except Failure Buffer → Producer} :
    p.request host packer packer' ≠ .receive c b next := by
  intro h
  unfold Producer.request at h
  split at h
  case h_5 =>
    split at h
    · cases h
    · split at h
      · cases h
      · cases h
  case h_8 =>
    obtain ⟨_, hreceive⟩ := Request.of_map_receive h
    exact TickSender.never_receives hreceive
  all_goals cases h

section Consumer
variable {alloc : UInt64 → Bool} {consumer : Consumer}

theorem Consumer.sends {next : Except Failure Unit → Consumer}
    (h : consumer.request host alloc packer packer' = .send c b next) :
    Setup.client c = .consumer := by
  unfold Consumer.request at h
  split at h
  case h_4 =>
    split at h
    · cases h
    · cases h
  case h_7 =>
    obtain ⟨_, hsend, _⟩ := Request.of_map_send h
    rw [TickSender.sends hsend]
    rfl
  all_goals cases h

theorem Consumer.receives {next : Except Failure Buffer → Consumer}
    (h : consumer.request host alloc packer packer' = .receive c b next) :
    Setup.server c = .consumer := by
  unfold Consumer.request at h
  split at h
  case h_3 =>
    cases h
    rfl
  case h_4 =>
    split at h
    · cases h
    · cases h
  case h_7 =>
    obtain ⟨_, hreceive⟩ := Request.of_map_receive h
    exact absurd hreceive TickSender.never_receives
  all_goals cases h

end Consumer

theorem Worker.never_sends {w : Worker} {next : Except Failure Unit → Worker} :
    w.request host packer connection ≠ .send c b next := by
  intro h
  unfold Worker.request at h
  split at h
  case h_4 =>
    split at h
    · cases h
    · cases h
  all_goals cases h

theorem Worker.receives {w : Worker} {next : Except Failure Buffer → Worker}
    (h : w.request host packer connection = .receive c b next) : c = connection := by
  unfold Worker.request at h
  split at h
  case h_3 =>
    cases h
    rfl
  case h_4 =>
    split at h
    · cases h
    · cases h
  all_goals cases h

end Ends

/-- The four threads and the three connections between them. -/
def Setup.network (setup : Setup) : Network Thread Connection Buffer Failure TimeTick where
  Local := Setup.Local
  request := setup.request
  sender := Setup.client
  receiver := Setup.server
  sends := by
    intro i p c b next h
    cases i with
    | producer => exact Producer.sends h
    | consumer => exact Consumer.sends h
    | consumerWorker => exact absurd h Worker.never_sends
    | producerWorker => exact absurd h Worker.never_sends
  receives := by
    intro i p c b next h
    cases i with
    | producer => exact absurd h Producer.never_receives
    | consumer => exact Consumer.receives h
    | consumerWorker =>
      rw [Worker.receives h]
      rfl
    | producerWorker =>
      rw [Worker.receives h]
      rfl

/-- The number of chunks that each process is told by its own arguments. -/
structure Counts where
  producer : UInt64
  consumer : UInt64
  analyzer : UInt64

/-- All are told the same. -/
abbrev Counts.same (chunksTotalCount : UInt64) : Counts :=
  ⟨chunksTotalCount, chunksTotalCount, chunksTotalCount⟩

/-- The three processes as their constructors leave them, with nothing sent yet. -/
def Setup.start (setup : Setup) (link : Connection → Link Buffer Failure)
    (generator : SimpleRoundGenerator) (counts : Counts) (buffers : Thread → Buffer)
    (readings : Thread → List TimeTick) (channel : ∀ c, (link c).State) :
    Network.State setup.network link where
  process := fun
    | .producer =>
      (⟨generator, Measurer.new counts.producer, buffers .producer, .toFirst⟩ : Producer)
    | .consumer => (⟨Measurer.new counts.consumer, buffers .consumer, [], .isFull⟩ : Consumer)
    | .consumerWorker =>
      (⟨Measurer.new counts.analyzer, buffers .consumerWorker, .isFull⟩ : Worker)
    | .producerWorker =>
      (⟨Measurer.new counts.analyzer, buffers .producerWorker, .isFull⟩ : Worker)
  readings := readings
  channel := channel

section Parts
variable {setup : Setup} {link : Connection → Link Buffer Failure}

/-! What the threads hold in a state of the network. -/

def producerOf (s : Network.State setup.network link) : Producer := s.process .producer

def consumerOf (s : Network.State setup.network link) : Consumer := s.process .consumer

def consumerWorkerOf (s : Network.State setup.network link) : Worker := s.process .consumerWorker

def producerWorkerOf (s : Network.State setup.network link) : Worker := s.process .producerWorker

end Parts

/-- A connection that keeps messages whole and in order. What a message weighs, and when there
is no room for it, is its own; a message that fits the receiver's buffer arrives at its front. -/
structure Transport where
  weight : List UInt8 → Nat
  capacity : Nat
  refusal : Failure
  deliver : Buffer → List UInt8 → Except Failure Buffer
  deliver_whole : ∀ b message, message.length ≤ b.capacity.toNat →
    deliver b message = .ok (b.fill message)

def Transport.queue (transport : Transport) : Queue Buffer (List UInt8) Failure where
  contents := Buffer.contents
  weight := transport.weight
  capacity := transport.capacity
  refusal := transport.refusal
  deliver := transport.deliver

/-- The links of a network over transports. -/
abbrev links (transport : Connection → Transport) (c : Connection) : Link Buffer Failure :=
  (transport c).queue.channel.toLink

end IpcChecker.Actors
