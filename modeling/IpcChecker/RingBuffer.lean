import IpcChecker.Host

/-!
# The single-producer single-consumer ring buffer

`SPSCRingBuffer` as the code computes it: 32-bit index halves with wrap-around,
the branch-free advance of `ProcessMessage`, and whole `Push` and `Pop` calls.
A call whose waiting loop would not exit in the given state returns `none`.
-/

namespace IpcChecker
open Shared
set_option autoImplicit false

/-- The two halves of an atomic 64-bit index. -/
structure IndexAsUInt64 where
  value : UInt32
  version : UInt32
  deriving Repr, DecidableEq

def sizeofRecordHeader : UInt32 := 4

def alignUpByRecordHeader {σ : Type} (value : UInt32) : Action σ UInt32 := do
  let kStep := sizeofRecordHeader
  let alignedValue := (value + kStep - 1) &&& ~~~(kStep - 1)
  assert (value ≤ alignedValue)
  return alignedValue

/-- The word `-(condition)`: all ones or zero. -/
def mask (p : Prop) [Decidable p] : UInt32 := -(if p then 1 else 0)

def processMessage {σ : Type} (bytesCopier : UInt32 → UInt32 → Action σ Unit)
    (index : IndexAsUInt64) (payloadSize capacity : UInt32) : Action σ IndexAsUInt64 := do
  let value := index.value + sizeofRecordHeader
  assert (value ≤ capacity)
  let bufferFreeSizeFitPart := capacity - value
  assert (bufferFreeSizeFitPart ≤ capacity)
  let payloadSizeOverflowedPart :=
    mask (bufferFreeSizeFitPart < payloadSize) &&& (payloadSize - bufferFreeSizeFitPart)
  assert (payloadSizeOverflowedPart ≤ payloadSize)
  let payloadSizeFitPart := payloadSize - payloadSizeOverflowedPart
  bytesCopier payloadSizeFitPart payloadSizeOverflowedPart
  let payloadSizeFitPartAligned ← alignUpByRecordHeader payloadSizeFitPart
  assert (payloadSizeFitPartAligned ≤ bufferFreeSizeFitPart)
  let version := index.version +
    (if payloadSizeFitPartAligned = bufferFreeSizeFitPart then 1 else 0)
  let value := (mask (payloadSizeFitPartAligned ≠ bufferFreeSizeFitPart) &&&
      (value + payloadSizeFitPartAligned)) +
    (← alignUpByRecordHeader payloadSizeOverflowedPart)
  assert (value < capacity)
  return ⟨value, version⟩

namespace SPSCRingBuffer

def alignCapacity {σ : Type} (capacity : UInt32) : Action σ UInt32 := do
  let alignedCapacity ← alignUpByRecordHeader capacity
  if alignedCapacity < capacity then
    throw (.exception "capacity is overflowed after alignment")
  return alignedCapacity

end SPSCRingBuffer

/-- The object in shared memory. `_is_initialized` belongs to the start-up protocol. -/
structure SPSCRingBuffer where
  capacity : UInt32
  producerIndex : IndexAsUInt64
  consumerIndex : IndexAsUInt64
  ringBuffer : Memory UInt8

namespace SPSCRingBuffer

/-- The members as the constructor's initialiser list leaves them. -/
def initial (capacity : UInt32) (ringBuffer : Memory UInt8) : SPSCRingBuffer :=
  { capacity, producerIndex := ⟨0, 0⟩, consumerIndex := ⟨0, 0⟩, ringBuffer }

/-- The constructor on memory with the given ring bytes. -/
def new {σ : Type} (capacity : UInt32) (ringBuffer : Memory UInt8) : Action σ SPSCRingBuffer := do
  if capacity ≠ (← alignCapacity capacity) then
    throw (.exception "wrong capacity")
  return initial capacity ringBuffer

/-- The free bytes a producer sees for a loaded consumer index. -/
def bufferFreeSize (capacity : UInt32) (producerIndex consumerIndex : IndexAsUInt64) : UInt32 :=
  (mask (consumerIndex.version = producerIndex.version) &&&
      (capacity - (producerIndex.value - consumerIndex.value))) +
    (mask (producerIndex.version ≠ consumerIndex.version) &&&
      (consumerIndex.value - producerIndex.value))

/-- One round of Push's waiting loop: whether it breaks. -/
def pushLoopBreaks {σ : Type} (capacity : UInt32) (producerIndex consumerIndex : IndexAsUInt64)
    (recordSize : UInt64) : Action σ Bool := do
  assert (consumerIndex.value < capacity)
  assert ((consumerIndex.version = producerIndex.version ∧
      consumerIndex.value ≤ producerIndex.value) ∨
    (consumerIndex.version ≠ producerIndex.version ∧
      producerIndex.value ≤ consumerIndex.value))
  let freeSize := bufferFreeSize capacity producerIndex consumerIndex
  assert (freeSize ≤ capacity)
  return decide (recordSize ≤ freeSize.toUInt64)

/-- Push's size check: the record size, unless the message can never fit. -/
def checkedRecordSize {σ : Type} (capacity : UInt32) (payloadSize : UInt64) :
    Action σ UInt64 := do
  let recordSize := sizeofRecordHeader.toUInt64 + payloadSize
  if recordSize < payloadSize ∨ capacity.toUInt64 < recordSize then
    throw (.exception "message is not fit in ring memory buffer")
  return recordSize

variable (host : Endianness)

/-- `new_record->payload_size = payload_size`. -/
def writeHeader (ringBuffer : Memory UInt8) (index : IndexAsUInt64) (payloadSize : UInt32) :
    Memory UInt8 :=
  Memory.memcpy ringBuffer index.value.toNat (bytesAt (objectBytes host 4 payloadSize.toNat)) 0 4

/-- `record->payload_size`. -/
def readHeader (ringBuffer : Memory UInt8) (index : IndexAsUInt64) : UInt32 :=
  UInt32.ofNat (ofObjectBytes host (Memory.slice ringBuffer index.value.toNat 4))

/-- The address of `record->payload`. -/
def payloadAddress (index : IndexAsUInt64) : Nat := index.value.toNat + sizeofRecordHeader.toNat

/-- Push's copy of the payload into the ring, the overflowed part to its start. -/
def pushBytesCopier (producerIndex : IndexAsUInt64) (payload : Memory UInt8)
    (payloadSizeFitPart payloadSizeOverflowedPart : UInt32) : Action SPSCRingBuffer Unit := do
  modify fun ring => { ring with
    ringBuffer := Memory.memcpy ring.ringBuffer (payloadAddress producerIndex) payload 0
      payloadSizeFitPart.toNat }
  modify fun ring => { ring with
    ringBuffer := Memory.memcpy ring.ringBuffer 0 payload payloadSizeFitPart.toNat
      payloadSizeOverflowedPart.toNat }

/-- What a Pop acts on: the ring and the message buffer it fills. -/
structure PopState where
  ring : SPSCRingBuffer
  msgBuf : Memory UInt8

/-- Pop's copy of the two payload parts into the message buffer. -/
def popBytesCopier (consumerIndex : IndexAsUInt64)
    (payloadSizeFitPart payloadSizeOverflowedPart : UInt32) : Action PopState Unit := do
  modify fun s => { s with
    msgBuf := Memory.memcpy s.msgBuf 0 s.ring.ringBuffer (payloadAddress consumerIndex)
      payloadSizeFitPart.toNat }
  modify fun s => { s with
    msgBuf := Memory.memcpy s.msgBuf payloadSizeFitPart.toNat s.ring.ringBuffer 0
      payloadSizeOverflowedPart.toNat }

def push (payload : Memory UInt8) (payloadSize : UInt64) :
    Action SPSCRingBuffer (Option Unit) := do
  let ring ← get
  let recordSize ← checkedRecordSize ring.capacity payloadSize
  let producerIndex := ring.producerIndex
  if ← pushLoopBreaks ring.capacity producerIndex ring.consumerIndex recordSize then
    modify fun ring => { ring with
      ringBuffer := writeHeader host ring.ringBuffer producerIndex payloadSize.toUInt32 }
    let newProducerIndex ← processMessage (pushBytesCopier producerIndex payload) producerIndex
      payloadSize.toUInt32 ring.capacity
    modify fun ring => { ring with producerIndex := newProducerIndex }
    return some ()
  else
    return none

/-- Returns the payload size. -/
def pop (msgBufCapacity : UInt64) : Action PopState (Option UInt64) := do
  let ring := (← get).ring
  let consumerIndex := ring.consumerIndex
  if consumerIndex = ring.producerIndex then
    return none
  else
    let payloadSize := readHeader host ring.ringBuffer consumerIndex
    if payloadSize.toUInt64 > msgBufCapacity then
      throw (.exception "message is not fit in outer memory buffer")
    let newConsumerIndex ← processMessage (popBytesCopier consumerIndex) consumerIndex payloadSize
      ring.capacity
    modify fun s => { s with ring := { s.ring with consumerIndex := newConsumerIndex } }
    return some payloadSize.toUInt64

end SPSCRingBuffer
end IpcChecker
