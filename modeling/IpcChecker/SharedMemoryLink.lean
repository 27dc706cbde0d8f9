import IpcChecker.MeasurementSystem
import IpcChecker.SharedMemoryServer

/-!
# A connection over shared memory

Client and server as the two ends of a ring, which answers as the queue of its payloads
does.
-/

namespace IpcChecker.Actors
open Shared
set_option autoImplicit false

/-- `SharedMemoryClient::Send`; Push does not return as long as it has to wait. -/
def sharedMemorySend (host : Endianness) (ring : SPSCRingBuffer) (b : Buffer) :
    Option (Except Failure Unit × SPSCRingBuffer) :=
  match (SPSCRingBuffer.push host b.data b.usedBytes).run ring with
  | .ok (some ()) ring => some (.ok (), ring)
  | .ok none _ => none
  | .error e ring => some (.error e, ring)

/-- `SharedMemoryServer::Receive`, which does not use the size that Pop returns. -/
def sharedMemoryReceive (host : Endianness) (ring : SPSCRingBuffer) (b : Buffer) :
    Option (Except Failure Buffer × SPSCRingBuffer) :=
  match (SPSCRingBuffer.pop host b.capacity).run ⟨ring, b.data⟩ with
  | .ok (some _) t => some (.ok (b.withData t.msgBuf), t.ring)
  | .ok none _ => none
  | .error e t => some (.error e, t.ring)

def sharedMemory (host : Endianness) : Link Buffer Failure where
  State := SPSCRingBuffer
  send := sharedMemorySend host
  receive := sharedMemoryReceive host

/-- A queue of payloads in which each takes the room of its record. -/
def ringTransport (capacity : UInt32) : Transport where
  weight message := recordSpace message.length
  capacity := capacity.toNat
  refusal := .exception "message is not fit in ring memory buffer"
  deliver b message :=
    if message.length ≤ b.capacity.toNat then .ok (b.fill message)
    else .error (.exception "message is not fit in outer memory buffer")
  deliver_whole _ _ h := if_pos h

/-- The ring holds the pending payloads. -/
def Holding (host : Endianness) (capacity : UInt32) (ring : SPSCRingBuffer)
    (pending : List (List UInt8)) : Prop :=
  ring.capacity = capacity ∧ ∃ q, Represents host ring pending q

section Ring
variable {host : Endianness} {capacity : UInt32} {ring : SPSCRingBuffer}
variable {pending : List (List UInt8)}

theorem contents_length (b : Buffer) : b.contents.length = b.usedBytes.toNat :=
  Memory.slice_length _ _ _

theorem Holding.send (h : Holding host capacity ring pending) (b : Buffer) :
    Option.Rel (fun a a' => a.1 = a'.1 ∧ Holding host capacity a.2 a'.2)
      (sharedMemorySend host ring b) ((ringTransport capacity).queue.send pending b) := by
  obtain ⟨rfl, q, hrep⟩ := h
  have hspace : recordSpace b.contents.length = recordSpace b.usedBytes.toNat := by
    rw [contents_length]
  have hfits := recordSpace_le_iff (n := b.usedBytes.toNat) hrep.aligned
  unfold sharedMemorySend Queue.send
  change Option.Rel _ _ (if ring.capacity.toNat < recordSpace b.contents.length then _
    else if unreadSpace pending + recordSpace b.contents.length ≤ ring.capacity.toNat then _
    else none)
  rw [hspace]
  by_cases hbig : ring.capacity.toNat < recordSpace b.usedBytes.toNat
  · rw [if_pos hbig, Represents.push_rejects ring b.data (by omega)]
    exact .some ⟨rfl, rfl, q, hrep⟩
  · rw [if_neg hbig]
    by_cases hroom : unreadSpace pending + recordSpace b.usedBytes.toNat ≤ ring.capacity.toNat
    · have hsize : 4 + b.usedBytes.toNat ≤ ring.capacity.toNat := by omega
      obtain ⟨ring', hrun, hcapacity, _, hrep'⟩ := hrep.push_appends b.data hsize (by omega)
      rw [if_pos hroom, hrun]
      exact .some ⟨rfl, hcapacity, q, hrep'⟩
    · have hwaits : (SPSCRingBuffer.push host b.data b.usedBytes).run ring = .ok none ring :=
        hrep.push_waits b.data (by omega) (by omega)
      rw [if_neg hroom, hwaits]
      exact .none

theorem Holding.receive (h : Holding host capacity ring pending) (b : Buffer) :
    Option.Rel (fun a a' => a.1 = a'.1 ∧ Holding host capacity a.2 a'.2)
      (sharedMemoryReceive host ring b) ((ringTransport capacity).queue.receive pending b) := by
  obtain ⟨hcapacity, q, hrep⟩ := h
  unfold sharedMemoryReceive
  cases pending with
  | nil =>
    rw [hrep.pop_waits b.data b.capacity]
    exact .none
  | cons payload rest =>
    by_cases hroom : payload.length ≤ b.capacity.toNat
    · obtain ⟨ring', hrun, hcapacity', _, _, hrep'⟩ := hrep.pop_takes b.data hroom
      have hdelivered : (ringTransport capacity).queue.deliver b payload =
          .ok (b.fill payload) := if_pos hroom
      rw [hrun, Queue.receive_delivered _ hdelivered]
      refine .some ⟨?_, hcapacity'.trans hcapacity, _, hrep'⟩
      rw [Memory.memcpy_eq_store, Memory.slice_ofList, Buffer.withData_store]
    · have hfailed : (ringTransport capacity).queue.deliver b payload =
          .error (.exception "message is not fit in outer memory buffer") := if_neg hroom
      rw [hrep.pop_rejects b.data (Nat.lt_of_not_le hroom), Queue.receive_failed _ hfailed]
      exact .some ⟨rfl, hcapacity, q, hrep⟩

end Ring

/-- A ring answers as the queue of its payloads. -/
def ringRefinement (host : Endianness) (capacity : UInt32) :
    Refinement (sharedMemory host) (ringTransport capacity).queue.channel.toLink where
  Related := Holding host capacity
  Admits _ := True
  send b _ h := Holding.send h b
  receive b h := Holding.receive h b

/-- A server that could be constructed has an empty ring with room for the size asked for. -/
theorem ring_of_new {calls : SharedMemoryServer.SystemCalls} {bufferSize : Option UInt64}
    {o : SharedObject}
    (hnew : (SharedMemoryServer.new calls bufferSize).run none = .ok () (some o)) :
    o.ring.capacity.toNat % 4 = 0 ∧
      (SharedMemoryServer.requestedCapacity bufferSize).toNat ≤ o.ring.capacity.toNat ∧
      o.ring = SPSCRingBuffer.initial o.ring.capacity o.ring.ringBuffer := by
  have hopen : calls.shmOpen := by
    by_contra hfail
    rw [SharedMemoryServer.new_of_shmOpen (Or.inr hfail)] at hnew
    cases hnew
  rcases Nat.lt_or_ge ((SharedMemoryServer.requestedCapacity bufferSize).toNat + 3) (2 ^ 32) with
    hfits | hover
  · rcases SharedMemoryServer.new_builds hopen hfits with ⟨_, _, hfail, _⟩ | ⟨capacity, hnat, hrun⟩
    · rw [hfail] at hnew
      cases hnew
    · rw [hrun] at hnew
      cases hnew
      unfold alignedSize at hnat
      exact ⟨by change capacity.toNat % 4 = 0; omega, by change _ ≤ capacity.toNat; omega, rfl⟩
  · rw [SharedMemoryServer.new_asserts hopen hover] at hnew
    cases hnew

theorem holding_of_new (host : Endianness) {calls : SharedMemoryServer.SystemCalls}
    {bufferSize : Option UInt64} {o : SharedObject}
    (hnew : (SharedMemoryServer.new calls bufferSize).run none = .ok () (some o)) :
    Holding host o.ring.capacity o.ring [] := by
  obtain ⟨haligned, _, hinitial⟩ := ring_of_new hnew
  refine ⟨rfl, 0, ?_⟩
  rw [hinitial]
  exact Represents.of_initial host haligned _

end IpcChecker.Actors
