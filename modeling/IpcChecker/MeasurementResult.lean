import IpcChecker.GeneratedStream
import IpcChecker.MeasurementInvariant

/-!
# The result of a measurement

When both loops have ended every message was received once and in order, and the
`i`-th shipping is the time from the tick before message `i` was packed to the
tick after it was unpacked.
-/

namespace IpcChecker
open Shared
set_option autoImplicit false

/-- What two ended loops leave behind, and what the statistics make of it. -/
structure Completed (msgs : List StdString) (events : List RunEvent) (s : MeasurementRun) :
    Prop where
  received : s.consumer.messages = msgs
  producerCount : s.producer.measurer.count = msgs.length
  consumerCount : s.consumer.measurer.count = msgs.length
  packs : events.countP RunEvent.isPack = msgs.length
  unpacks : events.countP RunEvent.isUnpack = msgs.length
  tick_pack : Precedes (fun e => e.producerReading.isSome) RunEvent.isPack events
  pack_unpack : Precedes RunEvent.isPack RunEvent.isUnpack events
  unpack_tick : Precedes RunEvent.isUnpack (fun e => e.consumerReading.isSome) events
  statistics : ∃ values total,
    (Statistics.process s.producer.measurer s.consumer.measurer).run () =
      .ok (values, some total) () ∧
    values.length = msgs.length ∧
    (∀ (i : Nat) (value : Int), values[i]? = some value → ∃ producerTick consumerTick,
      (events.filterMap RunEvent.producerReading)[i]? = some producerTick ∧
      (events.filterMap RunEvent.consumerReading)[i]? = some consumerTick ∧
      value = consumerTick.toInt - producerTick.toInt) ∧
    ((events.filterMap RunEvent.reading).Pairwise (· ≤ ·) → ∀ value ∈ values, 0 ≤ value)

section Result
variable {host : Endianness} {alloc : UInt64 → Bool} {capacity : Nat} {msgs : List StdString}
variable {events : List RunEvent} {s : MeasurementRun} {pushed popped : Nat}

theorem RunEvent.reading_of_producerReading {e : RunEvent} {now : TimeTick}
    (h : e.producerReading = some now) : e.reading = some now := by
  cases e with
  | producerTick now' => exact h
  | _ => cases h

theorem RunEvent.reading_of_consumerReading {e : RunEvent} {now : TimeTick}
    (h : e.consumerReading = some now) : e.reading = some now := by
  cases e with
  | consumerTick now' => exact h
  | _ => cases h

theorem TraceAt.ticks_le (ht : TraceAt events s)
    (hmono : (events.filterMap RunEvent.reading).Pairwise (· ≤ ·)) {i : Nat} {p c : TimeTick}
    (hp : (events.filterMap RunEvent.producerReading)[i]? = some p)
    (hc : (events.filterMap RunEvent.consumerReading)[i]? = some c) : p ≤ c := by
  have horder := (ht.tick_pack.trans ht.pack_unpack).trans ht.unpack_tick
  apply horder.readings_le ?_ hp hc
  apply (List.pairwise_filterMap.mp hmono).imp
  intro e e' hle a ha b hb
  exact hle a (RunEvent.reading_of_producerReading ha) b (RunEvent.reading_of_consumerReading hb)

theorem process_of_trace (ht : TraceAt events s) (hpos : 0 < s.producer.measurer.count)
    (hcounts : s.producer.measurer.count = s.consumer.measurer.count) :
    ∃ values total, (Statistics.process s.producer.measurer s.consumer.measurer).run () =
        .ok (values, some total) () ∧
      values.length = s.producer.measurer.count ∧
      ∀ (i : Nat) (value : Int), values[i]? = some value → ∃ producerTick consumerTick,
        (events.filterMap RunEvent.producerReading)[i]? = some producerTick ∧
        (events.filterMap RunEvent.consumerReading)[i]? = some consumerTick ∧
        value = consumerTick.toInt - producerTick.toInt := by
  have hproducer : s.producer.measurer.measurements ≠ [] := List.length_pos_iff.mp hpos
  have hposc : 0 < s.consumer.measurer.count := hcounts ▸ hpos
  have hconsumer : s.consumer.measurer.measurements ≠ [] := List.length_pos_iff.mp hposc
  refine ⟨_, (s.consumer.measurer.measurements.getLast hconsumer).toInt -
    (s.producer.measurer.measurements.head hproducer).toInt, ?_,
    Statistics.shippings_length s.producer.measurer.measurements
      s.consumer.measurer.measurements hcounts, ?_⟩
  · rw [Statistics.process_eq hcounts]
    unfold Statistics.totalTime Measurer.lastTick Measurer.firstTick
    rw [List.getLast?_eq_getLast_of_ne_nil hconsumer, List.head?_eq_some_head hproducer]
    rfl
  · intro i value hvalue
    rw [Statistics.shippings_getElem?] at hvalue
    obtain ⟨p, hp, hrest⟩ := Option.bind_eq_some_iff.mp hvalue
    obtain ⟨c, hc, heq⟩ := Option.map_eq_some_iff.mp hrest
    rw [ht.producerTicks] at hp
    rw [ht.consumerTicks] at hc
    exact ⟨p, c, hp, hc, heq.symm⟩

theorem completed (h : RunAt host capacity msgs s pushed popped) (ht : TraceAt events s)
    (hmsgs : msgs ≠ []) (hproducer : s.producer.phase = .finished)
    (hconsumer : s.consumer.phase = .finished) : Completed msgs events s := by
  have hpphase := h.producer.phase
  have hcphase := h.consumer.phase
  rw [hproducer] at hpphase
  rw [hconsumer] at hcphase
  obtain ⟨hit, hpcount, hpushed⟩ := hpphase
  obtain ⟨hlength, hccount, hpopped⟩ := hcphase
  have hpos := List.length_pos_iff.mpr hmsgs
  obtain ⟨values, total, hprocess, hvalues, hdiffs⟩ :=
    process_of_trace ht (by omega) (by omega)
  refine { received := ?_, producerCount := hpcount.trans hpushed
           consumerCount := hccount.trans hpopped
           packs := ht.packs.trans (hit.trans hpushed)
           unpacks := ht.unpacks.trans (hlength.trans hpopped)
           tick_pack := ht.tick_pack, pack_unpack := ht.pack_unpack
           unpack_tick := ht.unpack_tick, statistics := ?_ }
  · rw [h.consumer.received, hlength, hpopped, List.take_length]
  · refine ⟨values, total, hprocess, by omega, hdiffs, ?_⟩
    intro hmono value hmem
    obtain ⟨i, hi⟩ := List.mem_iff_getElem?.mp hmem
    obtain ⟨p, c, hp, hc, rfl⟩ := hdiffs i value hi
    have hle := Int64.le_iff_toInt_le.mp (ht.ticks_le hmono hp hc)
    omega

end Result

/-- For every number of messages that their vector can reserve, every size that fits, and every
schedule of the two loops. -/
theorem measurement_over_shared_memory (host : Endianness) (alloc : UInt64 → Bool)
    (chunksSize chunksTotalCount : UInt64) {capacity : UInt32}
    (hcount : 1 ≤ chunksTotalCount.toNat)
    (hreserve : chunksTotalCount.toNat ≤ vectorMaxSize SimpleRoundGenerator.sizeofString)
    (hbuffer : 8 + chunksSize.toNat ≤ 10000)
    (haligned : capacity.toNat % 4 = 0) (hring : 12 + chunksSize.toNat ≤ capacity.toNat)
    (halloc : ∀ size : UInt64, size.toNat ≤ 10000 → alloc size = true) (ringBuffer : Memory UInt8)
    {producerBuffer consumerBuffer : Buffer} (hproducer : producerBuffer.Valid)
    (hconsumer : consumerBuffer.Valid) :
    ∃ generator : SimpleRoundGenerator,
      (SimpleRoundGenerator.new chunksSize chunksTotalCount).run () = .ok generator () ∧
      generator.msgs.length = chunksTotalCount.toNat ∧
      (∀ msg ∈ generator.msgs, msg.bytes.length = chunksSize.toNat) ∧
      ∀ events s, Run (MeasurementRun.Steps host alloc)
          (MeasurementRun.start (SPSCRingBuffer.initial capacity ringBuffer) generator
            chunksTotalCount producerBuffer consumerBuffer) events s →
        (∀ e, s.producer.phase ≠ .failed e ∧ s.consumer.phase ≠ .failed e) ∧
        (¬ (s.producer.phase = .finished ∧ s.consumer.phase = .finished) →
          ∃ e s', MeasurementRun.Steps host alloc s e s') ∧
        (s.producer.phase = .finished → s.consumer.phase = .finished →
          Completed generator.msgs events s) := by
  have hsmall : chunksSize.toNat < 2 ^ 63 := by omega
  obtain ⟨generator, hnew, hlength, hsizes⟩ :=
    SimpleRoundGenerator.new_run hsmall hreserve ()
  refine ⟨generator, hnew, hlength, hsizes, ?_⟩
  have hmsgs : Transferable alloc capacity.toNat generator.msgs := by
    constructor
    · intro msg hmem
      rw [hsizes msg hmem]
      exact hbuffer
    · intro msg hmem
      rw [hsizes msg hmem]
      exact hring
    · intro msg hmem
      apply halloc
      rw [msg.size_toNat, hsizes msg hmem]
      omega
  have hne : generator.msgs ≠ [] := List.length_pos_iff.mp (by omega)
  intro events s hrun
  obtain ⟨pushed, popped, h, ht⟩ := runAt_of_run hmsgs
    (RunAt.start haligned ringBuffer hlength hproducer hconsumer) (TraceAt.start _ _ _ _ _) hrun
  exact ⟨h.not_failed, h.progress hmsgs, completed h ht hne⟩

/-- The rounds of both loops for one message after the other. -/
def twoRounds : List RunEvent :=
  [.producerTest, .producerTick 1, .producerReset, .pack, .push, .consumerTest, .consumerReset,
    .pop, .unpack, .consumerTick 3, .producerTest, .producerTick 5, .producerReset, .pack, .push,
    .producerTest, .consumerTest, .consumerReset, .pop, .unpack, .consumerTick 9, .consumerTest]

/-- Both messages through a ring that has room for one of them, to the end of the loops. -/
theorem measurement_over_shared_memory_sample : ∃ generator events s,
    (SimpleRoundGenerator.new 1 2).run () = .ok generator () ∧
    Run (MeasurementRun.Steps .kLittle fun _ => true)
      (MeasurementRun.start (SPSCRingBuffer.initial 16 (bytesAt [])) generator 2
        (Buffer.new (bytesAt []) 4096) (Buffer.new (bytesAt []) 4096)) events s ∧
    Completed generator.msgs events s := by
  have hvalid : (Buffer.new (bytesAt []) 4096).Valid := Buffer.valid_new_page _
  have haligned : (16 : UInt32).toNat % 4 = 0 := rfl
  obtain ⟨generator, hnew, _, _, hruns⟩ := measurement_over_shared_memory .kLittle
    (fun _ => true) 1 2 (by decide) (by decide) (by decide) haligned (by decide) (fun _ _ => rfl)
    (bytesAt []) hvalid hvalid
  rw [SimpleRoundGenerator.twoLetters_new] at hnew
  cases hnew
  have hfold : (twoRounds.foldlM (fun s e => MeasurementRun.step .kLittle (fun _ => true) s e)
      (MeasurementRun.start (SPSCRingBuffer.initial 16 (bytesAt []))
        SimpleRoundGenerator.twoLetters 2 (Buffer.new (bytesAt []) 4096)
        (Buffer.new (bytesAt []) 4096))).map
      (fun s => (s.producer.phase, s.consumer.phase)) = some (.finished, .finished) := rfl
  obtain ⟨s, hs, hphases⟩ := Option.map_eq_some_iff.mp hfold
  obtain ⟨hproducer, hconsumer⟩ := Prod.mk.inj hphases
  have hrun := Run.of_foldlM hs
  exact ⟨_, twoRounds, s, SimpleRoundGenerator.twoLetters_new, hrun,
    (hruns _ s hrun).2.2 hproducer hconsumer⟩

end IpcChecker
