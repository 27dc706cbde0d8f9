import IpcChecker.RingCalls

/-!
# What runs of Push and Pop calls guarantee

Order and content of the payloads, the relation of the two indices, progress, and
the invisibility of failed calls. All four hold of every run on every ring whose
capacity is a multiple of the header size.
-/

namespace IpcChecker
open Shared
set_option autoImplicit false

/-- The sum in Push's waiting condition, with each record rounded up. -/
theorem unreadSpace_eq_sum (unread : List (List UInt8)) :
    unreadSpace unread = (unread.map fun payload => alignedSize (4 + payload.length)).sum := by
  simp [unreadSpace, Fifo.load, recordSpace_eq]

namespace Represents
variable {host : Endianness} {ring : SPSCRingBuffer} {unread : List (List UInt8)} {q : Nat}
variable (h : Represents host ring unread q)
include h

theorem push_waits_iff (payload : Memory UInt8) {payloadSize : UInt64}
    (hfit : 4 + payloadSize.toNat ≤ ring.capacity.toNat) :
    (call host ring (.push payload payloadSize)).2 = .waits ↔
      ring.capacity.toNat < recordSpace payloadSize.toNat + unreadSpace unread := by
  constructor
  · intro hwaits
    by_contra hroom
    obtain ⟨ring', hcall, _⟩ := h.call_push_appends payload hfit (Nat.le_of_not_lt hroom)
    rw [hcall] at hwaits
    exact Outcome.noConfusion hwaits
  · intro hfull
    rw [h.call_push_waits payload hfit hfull]

theorem push_returns_iff (payload : Memory UInt8) {payloadSize : UInt64}
    (hfit : 4 + payloadSize.toNat ≤ ring.capacity.toNat) :
    (call host ring (.push payload payloadSize)).2 = .pushed ↔
      recordSpace payloadSize.toNat + unreadSpace unread ≤ ring.capacity.toNat := by
  constructor
  · intro hpushed
    by_contra hfull
    rw [h.call_push_waits payload hfit (Nat.lt_of_not_le hfull)] at hpushed
    exact Outcome.noConfusion hpushed
  · intro hroom
    obtain ⟨ring', hcall, _⟩ := h.call_push_appends payload hfit hroom
    rw [hcall]

/-- A Push fails exactly on a payload that no ring state could take. -/
theorem push_throws_iff (payload : Memory UInt8) (payloadSize : UInt64) :
    (call host ring (.push payload payloadSize)).2.throws ↔
      ring.capacity.toNat < 4 + payloadSize.toNat := by
  constructor
  · intro hthrows
    by_contra hfit
    rcases Nat.lt_or_ge ring.capacity.toNat
      (recordSpace payloadSize.toNat + unreadSpace unread) with hfull | hroom
    · rw [h.call_push_waits payload (Nat.le_of_not_lt hfit) hfull] at hthrows
      exact hthrows
    · obtain ⟨ring', hcall, _⟩ := h.call_push_appends payload (Nat.le_of_not_lt hfit) hroom
      rw [hcall] at hthrows
      exact hthrows
  · intro hbig
    rw [call_push_rejects host ring payload hbig]
    trivial

theorem pop_waits_iff (msgBuf : Memory UInt8) (msgBufCapacity : UInt64) :
    (call host ring (.pop msgBuf msgBufCapacity)).2 = .waits ↔ unread = [] := by
  constructor
  · intro hwaits
    cases unread with
    | nil => rfl
    | cons payload rest =>
      rcases Nat.lt_or_ge msgBufCapacity.toNat payload.length with hsmall | hroom
      · rw [h.call_pop_rejects msgBuf hsmall] at hwaits
        exact Outcome.noConfusion hwaits
      · obtain ⟨_, _, _, hcall, _⟩ := h.call_pop_takes msgBuf hroom
        rw [hcall] at hwaits
        exact Outcome.noConfusion hwaits
  · rintro rfl
    rw [h.call_pop_waits]

/-- A Pop fails exactly when the oldest payload is longer than its buffer. -/
theorem pop_throws_iff (msgBuf : Memory UInt8) (msgBufCapacity : UInt64) :
    (call host ring (.pop msgBuf msgBufCapacity)).2.throws ↔
      ∃ payload, unread.head? = some payload ∧ msgBufCapacity.toNat < payload.length := by
  cases unread with
  | nil =>
    rw [h.call_pop_waits]
    simp [Outcome.throws]
  | cons payload rest =>
    rcases Nat.lt_or_ge msgBufCapacity.toNat payload.length with hsmall | hroom
    · rw [h.call_pop_rejects msgBuf hsmall]
      simp [Outcome.throws, hsmall]
    · obtain ⟨_, _, _, hcall, _⟩ := h.call_pop_takes msgBuf hroom
      rw [hcall]
      simpa [Outcome.throws] using hroom

theorem call_throws (c : Call) (hthrows : (call host ring c).2.throws) :
    (call host ring c).1 = ring ∧ (call host ring c).2 ≠ .failed .assertion := by
  cases c with
  | push payload payloadSize =>
    have hbig := (h.push_throws_iff payload payloadSize).mp hthrows
    rw [call_push_rejects host ring payload hbig]
    exact ⟨rfl, by simp⟩
  | pop msgBuf msgBufCapacity =>
    obtain ⟨payload, hhead, hsmall⟩ := (h.pop_throws_iff msgBuf msgBufCapacity).mp hthrows
    obtain ⟨rest, rfl⟩ := List.head?_eq_some_iff.mp hhead
    rw [h.call_pop_rejects msgBuf hsmall]
    exact ⟨rfl, by simp⟩

theorem call_never_asserts (c : Call) : (call host ring c).2 ≠ .failed .assertion := by
  intro heq
  have hthrows : (call host ring c).2.throws := by
    rw [heq]
    trivial
  exact (h.call_throws c hthrows).2 heq

end Represents

/-- Popping into large enough buffers takes the unread payloads one by one. -/
theorem Represents.drain {host : Endianness} (buffers : List (Memory UInt8 × UInt64)) :
    ∀ {ring : SPSCRingBuffer} {unread : List (List UInt8)} {q : Nat},
      Represents host ring unread q →
      (∀ b ∈ buffers, ∀ payload ∈ unread, payload.length ≤ b.2.toNat) →
      ∃ q', Represents host
        (Machine.run (call host) ring (buffers.map fun b => .pop b.1 b.2)).1
          (unread.drop buffers.length) q' ∧
        (Machine.run (call host) ring (buffers.map fun b => .pop b.1 b.2)).1.capacity =
          ring.capacity := by
  induction buffers with
  | nil =>
    intro ring unread q h _
    exact ⟨q, h, rfl⟩
  | cons b buffers ih =>
    intro ring unread q h hlarge
    rw [List.map_cons, Machine.run_cons]
    cases unread with
    | nil =>
      rw [h.call_pop_waits]
      obtain ⟨q', hrep, hcap⟩ := ih h (by simp)
      exact ⟨q', by simpa using hrep, hcap⟩
    | cons payload rest =>
      obtain ⟨ring', _, _, hcall, _, hcap, hrep⟩ :=
        h.call_pop_takes b.1 (hlarge b (by simp) payload (by simp))
      rw [hcall]
      obtain ⟨q', hrep', hcap'⟩ := ih hrep fun b' hb' payload' hp' =>
        hlarge b' (by simp [hb']) payload' (by simp [hp'])
      exact ⟨q', by simpa using hrep', hcap'.trans hcap⟩

/-- A wrap-around, a full ring, and both kinds of failed call. -/
def sampleCalls : List Call :=
  [.push (bytesAt [1, 2, 3]) 3, .pop (bytesAt []) 8, .push (bytesAt [4, 5, 6, 7, 8]) 5,
    .push (bytesAt [9]) 1, .pop (bytesAt []) 2, .push (bytesAt []) 100]

/-- Payloads come out as they went in, and Push waits on the rounded record sizes. -/
theorem ring_refines_queue (host : Endianness) {capacity : UInt32}
    (h : capacity.toNat % 4 = 0) (ringBuffer : Memory UInt8) (calls : List Call) :
    let final := runCalls host capacity ringBuffer calls
    (∀ (n : Nat) (payload : List UInt8), (poppedPayloads final.2)[n]? = some payload →
      (pushedPayloads final.2)[n]? = some payload) ∧
    ∃ unread, pushedPayloads final.2 = poppedPayloads final.2 ++ unread ∧
      ∀ (payload : Memory UInt8) (payloadSize : UInt64),
        4 + payloadSize.toNat ≤ capacity.toNat →
        ((call host final.1 (.push payload payloadSize)).2 = .pushed ↔
          alignedSize (4 + payloadSize.toNat) +
            (unread.map fun m => alignedSize (4 + m.length)).sum ≤ capacity.toNat) ∧
        ((call host final.1 (.push payload payloadSize)).2 = .waits ↔
          capacity.toNat < alignedSize (4 + payloadSize.toNat) +
            (unread.map fun m => alignedSize (4 + m.length)).sum) := by
  intro final
  obtain ⟨hcap, unread, q, hrep, hqueue⟩ := runCalls_represents host h ringBuffer calls
  refine ⟨?_, unread, Fifo.conservation _ _ hqueue, ?_⟩
  · intro n payload hn
    exact Fifo.popped_getElem? _ _ hqueue hn
  intro payload payloadSize hfit
  rw [← recordSpace_eq, ← unreadSpace_eq_sum, ← hcap]
  rw [← hcap] at hfit
  exact ⟨hrep.push_returns_iff payload hfit, hrep.push_waits_iff payload hfit⟩

theorem ring_refines_queue_sample :
    (poppedPayloads (runCalls .kLittle 16 (bytesAt []) sampleCalls).2)[0]? = some [1, 2, 3] ∧
    (pushedPayloads (runCalls .kLittle 16 (bytesAt []) sampleCalls).2)[0]? = some [1, 2, 3] :=
  ⟨by decide, (ring_refines_queue .kLittle (by decide) (bytesAt []) sampleCalls).1 0 [1, 2, 3]
    (by decide)⟩

/-- The relation of the two indices in every reachable state. -/
theorem ring_indices_related (host : Endianness) {capacity : UInt32}
    (h : capacity.toNat % 4 = 0) (ringBuffer : Memory UInt8) (calls : List Call)
    (hpos : 0 < capacity.toNat) :
    let final := runCalls host capacity ringBuffer calls
    let producer := final.1.producerIndex
    let consumer := final.1.consumerIndex
    (producer.value.toNat % 4 = 0 ∧ producer.value < capacity) ∧
    (consumer.value.toNat % 4 = 0 ∧ consumer.value < capacity) ∧
    (consumer.version = producer.version ∧ consumer.value ≤ producer.value ∨
      producer.version = consumer.version + 1 ∧ producer.value ≤ consumer.value) ∧
    (∃ unread, pushedPayloads final.2 = poppedPayloads final.2 ++ unread ∧
      (consumer = producer ↔ unread = []) ∧
      (consumer.value = producer.value ∧ consumer.version ≠ producer.version ↔
        unreadSpace unread = capacity.toNat)) ∧
    ∀ c, (call host final.1 c).2 ≠ .failed .assertion := by
  intro final producer consumer
  obtain ⟨hcap, unread, q, hrep, hqueue⟩ := runCalls_represents host h ringBuffer calls
  have hconsumer : consumer = indexAt capacity.toNat q := hcap ▸ hrep.consumer
  have hproducer : producer = indexAt capacity.toNat (q + unreadSpace unread) :=
    hcap ▸ hrep.producer
  have hroom : unreadSpace unread ≤ capacity.toNat := hcap ▸ hrep.room
  have hc := capacity.toNat_lt
  have hcases := indexAt_cases hc hpos hroom (q := q)
  rw [← hconsumer, ← hproducer] at hcases
  have hvalue : ∀ p, p % 4 = 0 → (indexAt capacity.toNat p).value.toNat % 4 = 0 ∧
      (indexAt capacity.toNat p).value < capacity := by
    intro p hp
    rw [UInt32.lt_iff_toNat_lt, indexAt_value hc hpos,
      Nat.mod_mod_of_dvd _ (Nat.dvd_of_mod_eq_zero h)]
    exact ⟨hp, Nat.mod_lt p hpos⟩
  have hq := hrep.position
  have hspace := unreadSpace_mod unread
  refine ⟨hproducer ▸ hvalue _ (by omega), hconsumer ▸ hvalue _ hq, ?_,
    ⟨unread, Fifo.conservation _ _ hqueue, ?_, ?_⟩, hrep.call_never_asserts⟩
  · rw [UInt32.le_iff_toNat_le, UInt32.le_iff_toNat_le]
    rcases hcases with ⟨hver, _, hval⟩ | ⟨hver, _, _, hval⟩
    · exact Or.inl ⟨hver.symm, by omega⟩
    · exact Or.inr ⟨hver, by omega⟩
  · rw [hconsumer, hproducer, indexAt_eq_iff hc hpos hroom, unreadSpace_eq_zero_iff]
  · rw [← UInt32.toNat_inj]
    rcases hcases with ⟨hver, hstay, hval⟩ | ⟨_, hne, _, hval⟩
    · exact ⟨fun hboth => absurd hver.symm hboth.2, fun hfull => by omega⟩
    · exact ⟨fun hboth => by omega, fun hfull => ⟨by omega, fun heq => hne heq.symm⟩⟩

theorem ring_indices_related_sample :
    (runCalls .kLittle 16 (bytesAt []) sampleCalls).1.producerIndex = ⟨4, 1⟩ ∧
    ∀ c, (call .kLittle (runCalls .kLittle 16 (bytesAt []) sampleCalls).1 c).2 ≠
      .failed .assertion :=
  ⟨by decide, (ring_indices_related .kLittle (by decide) (bytesAt []) sampleCalls
    (by decide)).2.2.2.2⟩

/-- Push and Pop never both wait, and popping makes room for every payload. -/
theorem ring_never_wedges (host : Endianness) {capacity : UInt32}
    (h : capacity.toNat % 4 = 0) (ringBuffer : Memory UInt8) (calls : List Call)
    (payload : Memory UInt8) (payloadSize : UInt64)
    (hfit : 4 + payloadSize.toNat ≤ capacity.toNat) :
    let final := runCalls host capacity ringBuffer calls
    ((call host final.1 (.push payload payloadSize)).2 = .waits →
      ∀ msgBuf msgBufCapacity, (call host final.1 (.pop msgBuf msgBufCapacity)).2 ≠ .waits) ∧
    ∃ unread, pushedPayloads final.2 = poppedPayloads final.2 ++ unread ∧
      ∀ buffers : List (Memory UInt8 × UInt64), unread.length ≤ buffers.length →
        (∀ b ∈ buffers, ∀ m ∈ unread, m.length ≤ b.2.toNat) →
        ∃ k ≤ unread.length, ∀ j, k ≤ j →
          (call host
            (Machine.run (call host) final.1 ((buffers.take j).map fun b => .pop b.1 b.2)).1
            (.push payload payloadSize)).2 = .pushed := by
  intro final
  obtain ⟨hcap, unread, q, hrep, hqueue⟩ := runCalls_represents host h ringBuffer calls
  rw [← hcap] at hfit
  have hspace := (recordSpace_le_iff hrep.aligned).mpr hfit
  refine ⟨?_, unread, Fifo.conservation _ _ hqueue, ?_⟩
  · intro hwaits msgBuf msgBufCapacity hpop
    have hfull := (hrep.push_waits_iff payload hfit).mp hwaits
    have hnil := (hrep.pop_waits_iff msgBuf msgBufCapacity).mp hpop
    rw [hnil, unreadSpace_nil] at hfull
    omega
  · intro buffers hlen hlarge
    refine ⟨unread.length, Nat.le_refl _, fun j hj => ?_⟩
    obtain ⟨q', hdrained, hcap'⟩ := hrep.drain (buffers.take j) fun b hb =>
      hlarge b (List.mem_of_mem_take hb)
    rw [List.drop_eq_nil_of_le (by rw [List.length_take]; omega)] at hdrained
    apply (hdrained.push_returns_iff payload (hcap' ▸ hfit)).mpr
    rw [unreadSpace_nil, hcap']
    exact hspace

theorem ring_never_wedges_sample :
    (call .kLittle (runCalls .kLittle 16 (bytesAt []) sampleCalls).1
      (.push (bytesAt []) 12)).2 = .waits ∧
    (call .kLittle (runCalls .kLittle 16 (bytesAt []) sampleCalls).1
      (.pop (bytesAt []) 8)).2 ≠ .waits := by
  have hwaits : (call .kLittle (runCalls .kLittle 16 (bytesAt []) sampleCalls).1
      (.push (bytesAt []) 12)).2 = .waits := rfl
  exact ⟨hwaits, (ring_never_wedges .kLittle (by decide) (bytesAt []) sampleCalls (bytesAt []) 12
    (by decide)).1 hwaits (bytesAt []) 8⟩

/-- Failed calls can be deleted from a run; they fail exactly on the size checks. -/
theorem failed_calls_invisible (host : Endianness) {capacity : UInt32}
    (h : capacity.toNat % 4 = 0) (ringBuffer : Memory UInt8) (calls : List Call) :
    let final := runCalls host capacity ringBuffer calls
    (∀ payload payloadSize, (call host final.1 (.push payload payloadSize)).2.throws ↔
      capacity.toNat < 4 + payloadSize.toNat) ∧
    (∃ unread, pushedPayloads final.2 = poppedPayloads final.2 ++ unread ∧
      (∀ msgBuf msgBufCapacity, (call host final.1 (.pop msgBuf msgBufCapacity)).2.throws ↔
        ∃ oldest, unread.head? = some oldest ∧ msgBufCapacity.toNat < oldest.length) ∧
      ∀ oldest, unread.head? = some oldest →
        ∀ msgBuf msgBufCapacity, msgBufCapacity.toNat < oldest.length →
          (SPSCRingBuffer.pop host msgBufCapacity).run ⟨final.1, msgBuf⟩ =
            .error (.exception "message is not fit in outer memory buffer") ⟨final.1, msgBuf⟩ ∧
          ∀ msgBuf' msgBufCapacity', oldest.length ≤ msgBufCapacity'.toNat →
            ∃ filled payloadSize,
              (call host (call host final.1 (.pop msgBuf msgBufCapacity)).1
                (.pop msgBuf' msgBufCapacity')).2 = .popped filled payloadSize ∧
              Memory.slice filled 0 payloadSize.toNat = oldest) ∧
    runCalls host capacity ringBuffer
        ((final.2.filter fun io => ¬ io.2.throws).map Prod.fst) =
      (final.1, final.2.filter fun io => ¬ io.2.throws) := by
  intro final
  obtain ⟨hcap, unread, q, hrep, hqueue⟩ := runCalls_represents host h ringBuffer calls
  refine ⟨?_, ⟨unread, Fifo.conservation _ _ hqueue, hrep.pop_throws_iff, ?_⟩, ?_⟩
  · intro payload payloadSize
    rw [hrep.push_throws_iff, hcap]
  · intro oldest hhead msgBuf msgBufCapacity hsmall
    obtain ⟨rest, rfl⟩ := List.head?_eq_some_iff.mp hhead
    refine ⟨hrep.pop_rejects msgBuf hsmall, fun msgBuf' msgBufCapacity' hlarge => ?_⟩
    rw [hrep.call_pop_rejects msgBuf hsmall]
    obtain ⟨_, filled, payloadSize, hcall, hslice, _⟩ := hrep.call_pop_takes msgBuf' hlarge
    exact ⟨filled, payloadSize, by rw [hcall], hslice⟩
  · apply Machine.run_drop_idle (call host) (I := fun ring => ∃ unread q,
      Represents host ring unread q)
    · rintro ring c ⟨unread, q, hring⟩ hthrows
      exact (hring.call_throws c hthrows).1
    · rintro ring c ⟨unread, q, hring⟩
      obtain ⟨_, unread', q', hnext, _⟩ := hring.call_step c
      exact ⟨unread', q', hnext⟩
    · exact ⟨[], 0, Represents.of_initial host h ringBuffer⟩

theorem failed_calls_invisible_sample :
    let final := runCalls .kLittle 16 (bytesAt []) sampleCalls
    (final.2.filter fun io => ¬ io.2.throws).length = 4 ∧
    runCalls .kLittle 16 (bytesAt []) ((final.2.filter fun io => ¬ io.2.throws).map Prod.fst) =
      (final.1, final.2.filter fun io => ¬ io.2.throws) := by
  have hmod : (16 : UInt32).toNat % 4 = 0 := by decide
  exact ⟨by decide, (failed_calls_invisible .kLittle hmod (bytesAt []) sampleCalls).2.2⟩

end IpcChecker
