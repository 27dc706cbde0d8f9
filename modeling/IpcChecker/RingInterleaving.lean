import IpcChecker.RingState

/-!
# Push and Pop interleaved step by step

One producer and one consumer share the ring. Each load of the own index, each
load of the other side's index, the header, every payload byte and the store of
the new index is a step of its own. A load of the other side's index may return
any value stored at or after the one this side loaded last.
-/

namespace IpcChecker
open Shared
set_option autoImplicit false

/-- A copy in progress: the own index, the payload, the part that fits before the
end of the ring, and the index to store at the end. -/
structure Transfer where
  index : IndexAsUInt64
  payloadSize : UInt32
  fitPart : UInt32
  next : IndexAsUInt64
  deriving Repr, DecidableEq

namespace Transfer

/-- `ProcessMessage` with a copier that only notes the first part's size. -/
def start (index : IndexAsUInt64) (payloadSize capacity : UInt32) : Except Failure Transfer :=
  match (processMessage (fun fitPart _ => set fitPart) index payloadSize capacity).run 0 with
  | .ok next fitPart => .ok { index, payloadSize, fitPart, next }
  | .error e _ => .error e

/-- The ring address of payload byte `k`: the overflowed part is at the ring's start. -/
def address (t : Transfer) (k : Nat) : Nat :=
  if k < t.fitPart.toNat then SPSCRingBuffer.payloadAddress t.index + k else k - t.fitPart.toNat

end Transfer

inductive PushPhase where
  | idle
  | waiting (payload : Memory UInt8) (payloadSize recordSize : UInt64) (own : IndexAsUInt64)
  | passed (payload : Memory UInt8) (payloadSize : UInt64) (own : IndexAsUInt64)
  | copying (payload : Memory UInt8) (transfer : Transfer) (copied : Nat)
  | aborted

inductive PopPhase where
  | idle
  | waiting (msgBuf : Memory UInt8) (msgBufCapacity : UInt64) (own : IndexAsUInt64)
  | passed (msgBuf : Memory UInt8) (msgBufCapacity : UInt64) (own : IndexAsUInt64)
  | copying (msgBuf : Memory UInt8) (transfer : Transfer) (copied : Nat)
  | aborted

structure Record where
  index : IndexAsUInt64
  payload : List UInt8

/-- `producerStores` and `consumerStores` list the values of the two atomics, oldest
first; `producerSaw` and `consumerSaw` say how far into the other side's list a side
has looked. The last three fields record what completed calls did. -/
structure RingSystem where
  ring : SPSCRingBuffer
  producerStores : List IndexAsUInt64
  consumerStores : List IndexAsUInt64
  producerSaw : Nat
  consumerSaw : Nat
  push : PushPhase
  pop : PopPhase
  published : List Record
  released : Nat
  popped : List (List UInt8)

inductive Turn where
  | beginPush (payload : Memory UInt8) (payloadSize : UInt64)
  | loadConsumerIndex (i : Nat)
  | storeHeader
  | storeByte
  | publishRecord
  | beginPop (msgBuf : Memory UInt8) (msgBufCapacity : UInt64)
  | loadProducerIndex (i : Nat)
  | loadHeader
  | loadByte
  | releaseRecord

namespace RingSystem

def initial (capacity : UInt32) (ringBuffer : Memory UInt8) : RingSystem where
  ring := SPSCRingBuffer.initial capacity ringBuffer
  producerStores := [⟨0, 0⟩]
  consumerStores := [⟨0, 0⟩]
  producerSaw := 0
  consumerSaw := 0
  push := .idle
  pop := .idle
  published := []
  released := 0
  popped := []

/-- The size check and the load of the own index; a Push that throws is over at once. -/
def beginPush (payload : Memory UInt8) (payloadSize : UInt64) (s : RingSystem) :
    Option RingSystem :=
  match s.push with
  | .idle =>
    match (SPSCRingBuffer.checkedRecordSize s.ring.capacity payloadSize : Action Unit UInt64).run ()
    with
    | .ok recordSize _ =>
      some { s with push := .waiting payload payloadSize recordSize s.ring.producerIndex }
    | .error _ _ => some s
  | _ => none

/-- One round of Push's waiting loop. -/
def loadConsumerIndex (i : Nat) (s : RingSystem) : Option RingSystem :=
  match s.push, s.consumerStores[i]? with
  | .waiting payload payloadSize recordSize own, some consumerIndex =>
    if s.producerSaw ≤ i then
      match (SPSCRingBuffer.pushLoopBreaks s.ring.capacity own consumerIndex recordSize :
          Action Unit Bool).run () with
      | .ok true _ => some { s with producerSaw := i, push := .passed payload payloadSize own }
      | .ok false _ => some { s with producerSaw := i }
      | .error _ _ => some { s with producerSaw := i, push := .aborted }
    else none
  | _, _ => none

variable (host : Endianness)

def storeHeader (s : RingSystem) : Option RingSystem :=
  match s.push with
  | .passed payload payloadSize own =>
    match Transfer.start own payloadSize.toUInt32 s.ring.capacity with
    | .ok transfer =>
      some { s with
        ring := { s.ring with
          ringBuffer := SPSCRingBuffer.writeHeader host s.ring.ringBuffer own
            payloadSize.toUInt32 }
        push := .copying payload transfer 0 }
    | .error _ => some { s with push := .aborted }
  | _ => none

def storeByte (s : RingSystem) : Option RingSystem :=
  match s.push with
  | .copying payload transfer copied =>
    if copied < transfer.payloadSize.toNat then
      some { s with
        ring := { s.ring with
          ringBuffer := Function.update s.ring.ringBuffer (transfer.address copied)
            (payload copied) }
        push := .copying payload transfer (copied + 1) }
    else none
  | _ => none

def publishRecord (s : RingSystem) : Option RingSystem :=
  match s.push with
  | .copying payload transfer copied =>
    if copied = transfer.payloadSize.toNat then
      some { s with
        ring := { s.ring with producerIndex := transfer.next }
        producerStores := s.producerStores ++ [transfer.next]
        push := .idle
        published := s.published ++ [⟨transfer.index, Memory.slice payload 0 copied⟩] }
    else none
  | _ => none

def beginPop (msgBuf : Memory UInt8) (msgBufCapacity : UInt64) (s : RingSystem) :
    Option RingSystem :=
  match s.pop with
  | .idle => some { s with pop := .waiting msgBuf msgBufCapacity s.ring.consumerIndex }
  | _ => none

/-- One round of Pop's waiting loop. -/
def loadProducerIndex (i : Nat) (s : RingSystem) : Option RingSystem :=
  match s.pop, s.producerStores[i]? with
  | .waiting msgBuf msgBufCapacity own, some producerIndex =>
    if s.consumerSaw ≤ i then
      if own = producerIndex then some { s with consumerSaw := i }
      else some { s with consumerSaw := i, pop := .passed msgBuf msgBufCapacity own }
    else none
  | _, _ => none

/-- The header load and Pop's size check; a Pop that throws is over at once. -/
def loadHeader (s : RingSystem) : Option RingSystem :=
  match s.pop with
  | .passed msgBuf msgBufCapacity own =>
    let payloadSize := SPSCRingBuffer.readHeader host s.ring.ringBuffer own
    if payloadSize.toUInt64 > msgBufCapacity then
      some { s with pop := .idle }
    else
      match Transfer.start own payloadSize s.ring.capacity with
      | .ok transfer => some { s with pop := .copying msgBuf transfer 0 }
      | .error _ => some { s with pop := .aborted }
  | _ => none

def loadByte (s : RingSystem) : Option RingSystem :=
  match s.pop with
  | .copying msgBuf transfer copied =>
    if copied < transfer.payloadSize.toNat then
      some { s with
        pop := .copying
          (Function.update msgBuf copied (s.ring.ringBuffer (transfer.address copied)))
          transfer (copied + 1) }
    else none
  | _ => none

def releaseRecord (s : RingSystem) : Option RingSystem :=
  match s.pop with
  | .copying msgBuf transfer copied =>
    if copied = transfer.payloadSize.toNat then
      some { s with
        ring := { s.ring with consumerIndex := transfer.next }
        consumerStores := s.consumerStores ++ [transfer.next]
        pop := .idle
        released := s.released + 1
        popped := s.popped ++ [Memory.slice msgBuf 0 copied] }
    else none
  | _ => none

def turn (s : RingSystem) : Turn → Option RingSystem
  | .beginPush payload payloadSize => s.beginPush payload payloadSize
  | .loadConsumerIndex i => s.loadConsumerIndex i
  | .storeHeader => s.storeHeader host
  | .storeByte => s.storeByte
  | .publishRecord => s.publishRecord
  | .beginPop msgBuf msgBufCapacity => s.beginPop msgBuf msgBufCapacity
  | .loadProducerIndex i => s.loadProducerIndex i
  | .loadHeader => s.loadHeader host
  | .loadByte => s.loadByte
  | .releaseRecord => s.releaseRecord

/-- A turn that the system can take. -/
def Turns (s : RingSystem) (t : Turn) (s' : RingSystem) : Prop := s.turn host t = some s'

/-- The record of a Push that passed its guard and has not stored its index yet. -/
def pending (s : RingSystem) : Option (IndexAsUInt64 × UInt32) :=
  match s.push with
  | .passed _ payloadSize own => some (own, payloadSize.toUInt32)
  | .copying _ transfer _ => some (transfer.index, transfer.payloadSize)
  | _ => none

end RingSystem

/-- Whether the header, the payload or the padding of a record lies at address `a`. -/
def InRecord (capacity : UInt32) (index : IndexAsUInt64) (payloadSize : Nat) (a : Nat) : Prop :=
  let header := index.value.toNat
  let fit := min payloadSize (capacity.toNat - (header + 4))
  (header ≤ a ∧ a < header + 4) ∨
  (header + 4 ≤ a ∧ a < header + 4 + alignedSize fit) ∨
  a < alignedSize (payloadSize - fit)

instance (capacity : UInt32) (index : IndexAsUInt64) (payloadSize a : Nat) :
    Decidable (InRecord capacity index payloadSize a) := by
  unfold InRecord
  infer_instance

end IpcChecker
