import IpcChecker.RingState

/-!
# Runs of whole Push and Pop calls

A run is any list of calls on a freshly constructed ring. A call whose waiting
loop would not exit is recorded as such and does nothing. Every run is a run of
the bounded queue of payloads, where a payload weighs the space of its record.
-/

namespace IpcChecker
open Shared
set_option autoImplicit false

inductive Call where
  | push (payload : Memory UInt8) (payloadSize : UInt64)
  | pop (msgBuf : Memory UInt8) (msgBufCapacity : UInt64)

inductive Outcome where
  | waits
  | failed (e : Failure)
  | pushed
  | popped (msgBuf : Memory UInt8) (payloadSize : UInt64)

namespace Outcome

def throws : Outcome → Prop
  | failed _ => True
  | _ => False

instance : DecidablePred throws := fun
  | failed _ => isTrue trivial
  | waits | pushed | popped _ _ => isFalse id

end Outcome

def call (host : Endianness) (ring : SPSCRingBuffer) : Call → SPSCRingBuffer × Outcome
  | .push payload payloadSize =>
    match (SPSCRingBuffer.push host payload payloadSize).run ring with
    | .ok (some ()) ring => (ring, .pushed)
    | .ok none ring => (ring, .waits)
    | .error e ring => (ring, .failed e)
  | .pop msgBuf msgBufCapacity =>
    match (SPSCRingBuffer.pop host msgBufCapacity).run ⟨ring, msgBuf⟩ with
    | .ok (some payloadSize) s => (s.ring, .popped s.msgBuf payloadSize)
    | .ok none s => (s.ring, .waits)
    | .error e s => (s.ring, .failed e)

/-- The final ring of a run and its calls with their outcomes. -/
def runCalls (host : Endianness) (capacity : UInt32) (ringBuffer : Memory UInt8)
    (calls : List Call) : SPSCRingBuffer × List (Call × Outcome) :=
  Machine.run (call host) (SPSCRingBuffer.initial capacity ringBuffer) calls

/-- What a returned call put into the queue or took out of it. -/
def queueLabel : Call × Outcome → Option (Fifo.Label (List UInt8))
  | (.push payload payloadSize, .pushed) => some (.push (Memory.slice payload 0 payloadSize.toNat))
  | (.pop _ _, .popped msgBuf payloadSize) => some (.pop (Memory.slice msgBuf 0 payloadSize.toNat))
  | _ => none

/-- The payloads of the Pushes that returned, in order. -/
def pushedPayloads (trace : List (Call × Outcome)) : List (List UInt8) :=
  Fifo.pushed (trace.filterMap queueLabel)

/-- The payloads handed out by the Pops that returned, in order. -/
def poppedPayloads (trace : List (Call × Outcome)) : List (List UInt8) :=
  Fifo.popped (trace.filterMap queueLabel)

/-- A step of the queue of payloads under a capacity of `c` ring bytes. -/
abbrev QueueStep (c : Nat) : List (List UInt8) → Fifo.Label (List UInt8) →
    List (List UInt8) → Prop :=
  Fifo.Step (fun payload => recordSpace payload.length) c

namespace Represents
variable {host : Endianness} {ring : SPSCRingBuffer} {unread : List (List UInt8)} {q : Nat}

section Push
variable (h : Represents host ring unread q) (payload : Memory UInt8) {payloadSize : UInt64}
include h

theorem call_push_waits (hfit : 4 + payloadSize.toNat ≤ ring.capacity.toNat)
    (hfull : ring.capacity.toNat < recordSpace payloadSize.toNat + unreadSpace unread) :
    call host ring (.push payload payloadSize) = (ring, .waits) := by
  simp only [call, h.push_waits payload hfit hfull]

theorem call_push_appends (hfit : 4 + payloadSize.toNat ≤ ring.capacity.toNat)
    (hroom : recordSpace payloadSize.toNat + unreadSpace unread ≤ ring.capacity.toNat) :
    ∃ ring', call host ring (.push payload payloadSize) = (ring', .pushed) ∧
      ring'.capacity = ring.capacity ∧
      Represents host ring' (unread ++ [Memory.slice payload 0 payloadSize.toNat]) q := by
  obtain ⟨ring', hrun, hcap, _, hrep⟩ := h.push_appends payload hfit hroom
  exact ⟨ring', by simp only [call, hrun], hcap, hrep⟩

end Push

theorem call_push_rejects (host : Endianness) (ring : SPSCRingBuffer) (payload : Memory UInt8)
    {payloadSize : UInt64} (hbig : ring.capacity.toNat < 4 + payloadSize.toNat) :
    call host ring (.push payload payloadSize) =
      (ring, .failed (.exception "message is not fit in ring memory buffer")) := by
  simp only [call, push_rejects ring payload hbig]

theorem call_pop_waits (h : Represents host ring [] q) (msgBuf : Memory UInt8)
    (msgBufCapacity : UInt64) : call host ring (.pop msgBuf msgBufCapacity) = (ring, .waits) := by
  simp only [call, h.pop_waits]

section Pop
variable {payload : List UInt8} {rest : List (List UInt8)}
variable (h : Represents host ring (payload :: rest) q) (msgBuf : Memory UInt8)
variable {msgBufCapacity : UInt64}
include h

theorem call_pop_rejects (hsmall : msgBufCapacity.toNat < payload.length) :
    call host ring (.pop msgBuf msgBufCapacity) =
      (ring, .failed (.exception "message is not fit in outer memory buffer")) := by
  simp only [call, h.pop_rejects msgBuf hsmall]

theorem call_pop_takes (hroom : payload.length ≤ msgBufCapacity.toNat) :
    ∃ ring' msgBuf' payloadSize,
      call host ring (.pop msgBuf msgBufCapacity) = (ring', .popped msgBuf' payloadSize) ∧
      Memory.slice msgBuf' 0 payloadSize.toNat = payload ∧
      ring'.capacity = ring.capacity ∧
      Represents host ring' rest (q + recordSpace payload.length) := by
  obtain ⟨ring', hrun, hcap, _, _, hrep⟩ := h.pop_takes msgBuf hroom
  have hsize : (UInt64.ofNat payload.length).toNat = payload.length := by
    have hfit := h.fits_of_unread
    have hc := ring.capacity.toNat_lt
    exact UInt64.toNat_ofNat_of_lt' (by change _ < 2 ^ 64; omega)
  refine ⟨ring', Memory.memcpy msgBuf 0 (bytesAt payload) 0 payload.length,
    UInt64.ofNat payload.length, by simp only [call, hrun], ?_, hcap, hrep⟩
  rw [hsize, Memory.slice_memcpy_same]
  exact Memory.slice_ofList _ _

end Pop

/-- One call is at most one step of the queue. -/
theorem call_step (h : Represents host ring unread q) (c : Call) :
    (call host ring c).1.capacity = ring.capacity ∧
      ∃ unread' q', Represents host (call host ring c).1 unread' q' ∧
        Run (QueueStep ring.capacity.toNat) unread
          (queueLabel (c, (call host ring c).2)).toList unread' := by
  cases c with
  | push payload payloadSize =>
    rcases Nat.lt_or_ge ring.capacity.toNat (4 + payloadSize.toNat) with hbig | hfit
    · rw [call_push_rejects host ring payload hbig]
      exact ⟨rfl, unread, q, h, .start⟩
    · rcases Nat.lt_or_ge ring.capacity.toNat
        (recordSpace payloadSize.toNat + unreadSpace unread) with hfull | hroom
      · rw [h.call_push_waits payload hfit hfull]
        exact ⟨rfl, unread, q, h, .start⟩
      · obtain ⟨ring', hcall, hcap, hrep⟩ := h.call_push_appends payload hfit hroom
        rw [hcall]
        refine ⟨hcap, _, q, hrep, Run.single (.push ?_)⟩
        rw [Memory.slice_length, Nat.add_comm]
        exact hroom
  | pop msgBuf msgBufCapacity =>
    cases unread with
    | nil =>
      rw [h.call_pop_waits]
      exact ⟨rfl, [], q, h, .start⟩
    | cons payload rest =>
      rcases Nat.lt_or_ge msgBufCapacity.toNat payload.length with hsmall | hroom
      · rw [h.call_pop_rejects msgBuf hsmall]
        exact ⟨rfl, _, q, h, .start⟩
      · obtain ⟨ring', msgBuf', payloadSize, hcall, hslice, hcap, hrep⟩ :=
          h.call_pop_takes msgBuf hroom
        rw [hcall]
        refine ⟨hcap, rest, _, hrep, ?_⟩
        have hpop : Run (QueueStep ring.capacity.toNat) (payload :: rest)
            [Fifo.Label.pop payload] rest := Run.single .pop
        rw [← hslice] at hpop
        rwa [← hslice]

end Represents

theorem runCalls_represents (host : Endianness) {capacity : UInt32}
    (h : capacity.toNat % 4 = 0) (ringBuffer : Memory UInt8) (calls : List Call) :
    (runCalls host capacity ringBuffer calls).1.capacity = capacity ∧
      ∃ unread q, Represents host (runCalls host capacity ringBuffer calls).1 unread q ∧
        Run (QueueStep capacity.toNat) []
          ((runCalls host capacity ringBuffer calls).2.filterMap queueLabel) unread := by
  have hrun := Machine.run_invariant_history (call host)
    (I := fun trace ring => ring.capacity = capacity ∧ ∃ unread q,
      Represents host ring unread q ∧
        Run (QueueStep capacity.toNat) [] (trace.filterMap queueLabel) unread)
    ?step calls [] (SPSCRingBuffer.initial capacity ringBuffer)
    ⟨rfl, [], 0, Represents.of_initial host h ringBuffer, .start⟩
  case step =>
    rintro trace ring c ⟨hcap, unread, q, hrep, hqueue⟩
    obtain ⟨hcap', unread', q', hrep', hstep⟩ := hrep.call_step c
    refine ⟨hcap'.trans hcap, unread', q', hrep', ?_⟩
    rw [hcap] at hstep
    have htrans := hqueue.trans hstep
    rw [List.filterMap_append, List.filterMap_cons, List.filterMap_nil]
    cases hlabel : queueLabel (c, (call host ring c).2) <;> simpa [hlabel] using htrans
  exact hrun

end IpcChecker
