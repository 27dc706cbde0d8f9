import IpcChecker.Connection
import IpcChecker.Generator
import IpcChecker.Measurer
import IpcChecker.RingState
import IpcChecker.Shared.Runs

/-!
# A measurement over shared memory

The sending loop of `Producer::Run` and the receiving loop of `Consumer::Run` on
one ring, interleaved in any order. Push and Pop happen when their waiting loops
would exit. Clock readings come with the events.
-/

namespace IpcChecker
open Shared
set_option autoImplicit false

inductive ProducerPhase where
  | head
  | entered
  | ticked
  | reset
  | packed
  | finished
  | failed (e : Failure)

inductive ConsumerPhase where
  | head
  | entered
  | reset
  | popped
  | unpacked
  | finished
  | failed (e : Failure)

structure Producer where
  generator : SimpleRoundGenerator
  measurer : Measurer
  buffer : Buffer
  phase : ProducerPhase

/-- `messages` lists the strings unpacked so far. -/
structure Consumer where
  measurer : Measurer
  buffer : Buffer
  phase : ConsumerPhase
  messages : List StdString

structure MeasurementRun where
  ring : SPSCRingBuffer
  producer : Producer
  consumer : Consumer

inductive RunEvent where
  | producerTest
  | producerTick (now : TimeTick)
  | producerReset
  | pack
  | push
  | consumerTest
  | consumerReset
  | pop
  | unpack
  | consumerTick (now : TimeTick)
  deriving Repr, DecidableEq

namespace Producer

def start (generator : SimpleRoundGenerator) (chunksTotalCount : UInt64) (buffer : Buffer) :
    Producer where
  generator := generator.toFirst
  measurer := Measurer.new chunksTotalCount
  buffer := buffer
  phase := .head

/-- The condition of `while (generator.HasNext())`. -/
def test (p : Producer) : Option Producer :=
  match p.phase with
  | .head => some { p with phase := if p.generator.hasNext then .entered else .finished }
  | _ => none

def tick (now : TimeTick) (p : Producer) : Option Producer :=
  match p.phase with
  | .entered => some { p with measurer := p.measurer.tick now, phase := .ticked }
  | _ => none

def resetBuffer (p : Producer) : Option Producer :=
  match p.phase with
  | .ticked => some { p with buffer := p.buffer.reset, phase := .reset }
  | _ => none

def pack (host : Endianness) (p : Producer) : Option Producer :=
  match p.phase, p.generator.next with
  | .reset, some (msg, generator) =>
    match ((createPacker host .kSharedMemory).serializeString host msg).run p.buffer with
    | .ok _ buffer => some { p with generator, buffer, phase := .packed }
    | .error e buffer => some { p with generator, buffer, phase := .failed e }
  | _, _ => none

/-- `SharedMemoryClient::Send`. -/
def push (host : Endianness) (ring : SPSCRingBuffer) (p : Producer) :
    Option (SPSCRingBuffer × Producer) :=
  match p.phase with
  | .packed =>
    match (SPSCRingBuffer.push host p.buffer.data p.buffer.usedBytes).run ring with
    | .ok (some ()) ring => some (ring, { p with phase := .head })
    | .ok none _ => none
    | .error e ring => some (ring, { p with phase := .failed e })
  | _ => none

/-! What a step that happened was: the phase it started in and the producer it left. -/

section Inversion
variable {p p' : Producer}

theorem test_eq (h : p.test = some p') : p.phase = .head ∧
    p' = { p with phase := if p.generator.hasNext then .entered else .finished } := by
  unfold test at h
  split at h
  · rename_i hphase
    exact ⟨hphase, (Option.some.inj h).symm⟩
  · cases h

theorem tick_eq {now : TimeTick} (h : p.tick now = some p') : p.phase = .entered ∧
    p' = { p with measurer := p.measurer.tick now, phase := .ticked } := by
  unfold tick at h
  split at h
  · rename_i hphase
    exact ⟨hphase, (Option.some.inj h).symm⟩
  · cases h

theorem resetBuffer_eq (h : p.resetBuffer = some p') : p.phase = .ticked ∧
    p' = { p with buffer := p.buffer.reset, phase := .reset } := by
  unfold resetBuffer at h
  split at h
  · rename_i hphase
    exact ⟨hphase, (Option.some.inj h).symm⟩
  · cases h

theorem pack_eq {host : Endianness} (h : p.pack host = some p') : p.phase = .reset ∧
    ∃ msg, p.generator.msgs[p.generator.itMsgs]? = some msg ∧ ∃ buffer phase,
      p' = { p with
        generator := { p.generator with itMsgs := p.generator.itMsgs + 1 }, buffer, phase } ∧
      (((createPacker host .kSharedMemory).serializeString host msg).run p.buffer =
          .ok () buffer ∧ phase = .packed ∨
        ∃ e, ((createPacker host .kSharedMemory).serializeString host msg).run p.buffer =
          .error e buffer ∧ phase = .failed e) := by
  unfold pack at h
  split at h
  · rename_i msg generator hphase hnext
    obtain ⟨msg', hget, heq⟩ := Option.map_eq_some_iff.mp hnext
    cases heq
    refine ⟨hphase, msg, hget, ?_⟩
    split at h
    · rename_i buffer hrun
      exact ⟨buffer, _, (Option.some.inj h).symm, Or.inl ⟨hrun, rfl⟩⟩
    · rename_i e buffer hrun
      exact ⟨buffer, _, (Option.some.inj h).symm, Or.inr ⟨e, hrun, rfl⟩⟩
  · cases h

theorem push_eq {host : Endianness} {ring ring' : SPSCRingBuffer}
    (h : p.push host ring = some (ring', p')) : p.phase = .packed ∧ ∃ phase,
      p' = { p with phase } ∧
      ((SPSCRingBuffer.push host p.buffer.data p.buffer.usedBytes).run ring =
          .ok (some ()) ring' ∧ phase = .head ∨
        ∃ e, (SPSCRingBuffer.push host p.buffer.data p.buffer.usedBytes).run ring =
          .error e ring' ∧ phase = .failed e) := by
  unfold push at h
  split at h
  · rename_i hphase
    refine ⟨hphase, ?_⟩
    split at h
    · rename_i hrun
      cases h
      exact ⟨_, rfl, Or.inl ⟨hrun, rfl⟩⟩
    · cases h
    · rename_i e _ hrun
      cases h
      exact ⟨_, rfl, Or.inr ⟨e, hrun, rfl⟩⟩
  · cases h

end Inversion
end Producer

namespace Consumer

def start (chunksTotalCount : UInt64) (buffer : Buffer) : Consumer where
  measurer := Measurer.new chunksTotalCount
  buffer := buffer
  phase := .head
  messages := []

/-- The condition of `while (!measurer.IsFull())`. -/
def test (c : Consumer) : Option Consumer :=
  match c.phase with
  | .head => some { c with phase := if c.measurer.isFull then .finished else .entered }
  | _ => none

def resetBuffer (c : Consumer) : Option Consumer :=
  match c.phase with
  | .entered => some { c with buffer := c.buffer.reset, phase := .reset }
  | _ => none

/-- `SharedMemoryServer::Receive`. -/
def pop (host : Endianness) (ring : SPSCRingBuffer) (c : Consumer) :
    Option (SPSCRingBuffer × Consumer) :=
  match c.phase with
  | .reset =>
    match (SPSCRingBuffer.pop host c.buffer.capacity).run ⟨ring, c.buffer.data⟩ with
    | .ok (some _) t => some (t.ring, { c with buffer := c.buffer.withData t.msgBuf, phase := .popped })
    | .ok none _ => none
    | .error e t =>
      some (t.ring, { c with buffer := c.buffer.withData t.msgBuf, phase := .failed e })
  | _ => none

def unpack (host : Endianness) (alloc : UInt64 → Bool) (c : Consumer) : Option Consumer :=
  match c.phase with
  | .popped =>
    match ((createPacker host .kSharedMemory).deserializeString host alloc).run c.buffer with
    | .ok msg buffer =>
      some { c with buffer, messages := c.messages ++ [msg], phase := .unpacked }
    | .error e buffer => some { c with buffer, phase := .failed e }
  | _ => none

def tick (now : TimeTick) (c : Consumer) : Option Consumer :=
  match c.phase with
  | .unpacked => some { c with measurer := c.measurer.tick now, phase := .head }
  | _ => none

section Inversion
variable {c c' : Consumer}

theorem test_eq (h : c.test = some c') : c.phase = .head ∧
    c' = { c with phase := if c.measurer.isFull then .finished else .entered } := by
  unfold test at h
  split at h
  · rename_i hphase
    exact ⟨hphase, (Option.some.inj h).symm⟩
  · cases h

theorem resetBuffer_eq (h : c.resetBuffer = some c') : c.phase = .entered ∧
    c' = { c with buffer := c.buffer.reset, phase := .reset } := by
  unfold resetBuffer at h
  split at h
  · rename_i hphase
    exact ⟨hphase, (Option.some.inj h).symm⟩
  · cases h

theorem pop_eq {host : Endianness} {ring ring' : SPSCRingBuffer}
    (h : c.pop host ring = some (ring', c')) : c.phase = .reset ∧ ∃ msgBuf phase,
      c' = { c with buffer := c.buffer.withData msgBuf, phase } ∧
      ((∃ size, (SPSCRingBuffer.pop host c.buffer.capacity).run ⟨ring, c.buffer.data⟩ =
          .ok (some size) ⟨ring', msgBuf⟩) ∧ phase = .popped ∨
        ∃ e, (SPSCRingBuffer.pop host c.buffer.capacity).run ⟨ring, c.buffer.data⟩ =
          .error e ⟨ring', msgBuf⟩ ∧ phase = .failed e) := by
  unfold pop at h
  split at h
  · rename_i hphase
    refine ⟨hphase, ?_⟩
    split at h
    · rename_i size t hrun
      cases h
      exact ⟨t.msgBuf, _, rfl, Or.inl ⟨⟨size, hrun⟩, rfl⟩⟩
    · cases h
    · rename_i e t hrun
      cases h
      exact ⟨t.msgBuf, _, rfl, Or.inr ⟨e, hrun, rfl⟩⟩
  · cases h

theorem unpack_eq {host : Endianness} {alloc : UInt64 → Bool}
    (h : c.unpack host alloc = some c') : c.phase = .popped ∧
    ((∃ msg buffer, ((createPacker host .kSharedMemory).deserializeString host alloc).run
        c.buffer = .ok msg buffer ∧
      c' = { c with buffer, messages := c.messages ++ [msg], phase := .unpacked }) ∨
    ∃ e buffer, ((createPacker host .kSharedMemory).deserializeString host alloc).run
        c.buffer = .error e buffer ∧ c' = { c with buffer, phase := .failed e }) := by
  unfold unpack at h
  split at h
  · rename_i hphase
    refine ⟨hphase, ?_⟩
    split at h
    · rename_i msg buffer hrun
      exact Or.inl ⟨msg, buffer, hrun, (Option.some.inj h).symm⟩
    · rename_i e buffer hrun
      exact Or.inr ⟨e, buffer, hrun, (Option.some.inj h).symm⟩
  · cases h

theorem tick_eq {now : TimeTick} (h : c.tick now = some c') : c.phase = .unpacked ∧
    c' = { c with measurer := c.measurer.tick now, phase := .head } := by
  unfold tick at h
  split at h
  · rename_i hphase
    exact ⟨hphase, (Option.some.inj h).symm⟩
  · cases h

end Inversion
end Consumer

namespace MeasurementRun

def start (ring : SPSCRingBuffer) (generator : SimpleRoundGenerator) (chunksTotalCount : UInt64)
    (producerBuffer consumerBuffer : Buffer) : MeasurementRun where
  ring := ring
  producer := Producer.start generator chunksTotalCount producerBuffer
  consumer := Consumer.start chunksTotalCount consumerBuffer

def withProducer (s : MeasurementRun) (producer : Producer) : MeasurementRun := { s with producer }

def withConsumer (s : MeasurementRun) (consumer : Consumer) : MeasurementRun := { s with consumer }

variable (host : Endianness) (alloc : UInt64 → Bool)

def step (s : MeasurementRun) : RunEvent → Option MeasurementRun
  | .producerTest => s.producer.test.map s.withProducer
  | .producerTick now => (s.producer.tick now).map s.withProducer
  | .producerReset => s.producer.resetBuffer.map s.withProducer
  | .pack => (s.producer.pack host).map s.withProducer
  | .push => (s.producer.push host s.ring).map fun (ring, producer) => { s with ring, producer }
  | .consumerTest => s.consumer.test.map s.withConsumer
  | .consumerReset => s.consumer.resetBuffer.map s.withConsumer
  | .pop => (s.consumer.pop host s.ring).map fun (ring, consumer) => { s with ring, consumer }
  | .unpack => (s.consumer.unpack host alloc).map s.withConsumer
  | .consumerTick now => (s.consumer.tick now).map s.withConsumer

def Steps (s : MeasurementRun) (e : RunEvent) (s' : MeasurementRun) : Prop :=
  s.step host alloc e = some s'

end MeasurementRun

namespace RunEvent

def producerReading : RunEvent → Option TimeTick
  | producerTick now => some now
  | _ => none

def consumerReading : RunEvent → Option TimeTick
  | consumerTick now => some now
  | _ => none

/-- The clock readings of both sides. -/
def reading : RunEvent → Option TimeTick
  | producerTick now => some now
  | consumerTick now => some now
  | _ => none

def isPack : RunEvent → Bool
  | pack => true
  | _ => false

def isUnpack : RunEvent → Bool
  | unpack => true
  | _ => false

end RunEvent
end IpcChecker
