import IpcChecker.MeasurementRun
import IpcChecker.Shared.Traces

/-!
# The invariant of a measurement

How many messages were pushed and popped fixes what each side did so far. The
ring holds the packed forms of the messages between the two counts.
-/

namespace IpcChecker
open Shared
set_option autoImplicit false

/-- What a producer that has pushed `pushed` messages has done in its phase. -/
def ProducerPhase.Invariant (host : Endianness) (msgs : List StdString) (p : Producer)
    (pushed : Nat) : ProducerPhase → Prop
  | .head => p.generator.itMsgs = pushed ∧ p.measurer.count = pushed
  | .entered => p.generator.itMsgs = pushed ∧ p.measurer.count = pushed ∧ pushed < msgs.length
  | .ticked => p.generator.itMsgs = pushed ∧ p.measurer.count = pushed + 1 ∧ pushed < msgs.length
  | .reset => p.generator.itMsgs = pushed ∧ p.measurer.count = pushed + 1 ∧ pushed < msgs.length ∧
    p.buffer.bufWritePtr = p.buffer.buf
  | .packed => p.generator.itMsgs = pushed + 1 ∧ p.measurer.count = pushed + 1 ∧
    ∃ msg, msgs[pushed]? = some msg ∧ p.buffer.contents = packedBytes host msg
  | .finished => p.generator.itMsgs = pushed ∧ p.measurer.count = pushed ∧ pushed = msgs.length
  | .failed _ => False

structure ProducerAt (host : Endianness) (msgs : List StdString) (p : Producer) (pushed : Nat) :
    Prop where
  valid : p.buffer.Valid
  generated : p.generator.msgs = msgs
  pushed_le : pushed ≤ msgs.length
  phase : p.phase.Invariant host msgs p pushed

/-- What a consumer that has popped `popped` messages has done in its phase. -/
def ConsumerPhase.Invariant (host : Endianness) (msgs : List StdString) (c : Consumer)
    (popped : Nat) : ConsumerPhase → Prop
  | .head => c.messages.length = popped ∧ c.measurer.count = popped
  | .entered => c.messages.length = popped ∧ c.measurer.count = popped ∧ popped < msgs.length
  | .reset => c.messages.length = popped ∧ c.measurer.count = popped ∧ popped < msgs.length ∧
    c.buffer.bufReadPtr = c.buffer.buf
  | .popped => c.messages.length + 1 = popped ∧ c.measurer.count + 1 = popped ∧
    ∃ msg, msgs[c.messages.length]? = some msg ∧ c.buffer.Readable (packedBytes host msg)
  | .unpacked => c.messages.length = popped ∧ c.measurer.count + 1 = popped
  | .finished => c.messages.length = popped ∧ c.measurer.count = popped ∧ popped = msgs.length
  | .failed _ => False

structure ConsumerAt (host : Endianness) (msgs : List StdString) (c : Consumer) (popped : Nat) :
    Prop where
  valid : c.buffer.Valid
  capacity : c.measurer.capacity = msgs.length
  received : c.messages = msgs.take c.messages.length
  popped_le : popped ≤ msgs.length
  phase : c.phase.Invariant host msgs c popped

/-- What the whole run's messages and the ring have to satisfy. -/
structure Transferable (alloc : UInt64 → Bool) (c : Nat) (msgs : List StdString) : Prop where
  fits_buffer : ∀ msg ∈ msgs, 8 + msg.bytes.length ≤ 10000
  fits_ring : ∀ msg ∈ msgs, 12 + msg.bytes.length ≤ c
  alloc : ∀ msg ∈ msgs, alloc msg.size = true

/-- The packed messages between the two counts. -/
def inRing (host : Endianness) (msgs : List StdString) (popped pushed : Nat) : List (List UInt8) :=
  ((msgs.take pushed).drop popped).map (packedBytes host)

structure RunAt (host : Endianness) (c : Nat) (msgs : List StdString) (s : MeasurementRun)
    (pushed popped : Nat) : Prop where
  producer : ProducerAt host msgs s.producer pushed
  consumer : ConsumerAt host msgs s.consumer popped
  order : popped ≤ pushed
  capacity : s.ring.capacity.toNat = c
  ring : ∃ q, Represents host s.ring (inRing host msgs popped pushed) q

section Ring
variable (host : Endianness) {msgs : List StdString} {popped pushed : Nat}

theorem inRing_empty (h : pushed ≤ popped) : inRing host msgs popped pushed = [] := by
  unfold inRing
  rw [List.drop_of_length_le (by rw [List.length_take]; omega)]
  rfl

theorem inRing_push (hle : popped ≤ pushed) {msg : StdString} (hmsg : msgs[pushed]? = some msg) :
    inRing host msgs popped (pushed + 1) =
      inRing host msgs popped pushed ++ [packedBytes host msg] := by
  have hlt := (List.getElem?_eq_some_iff.mp hmsg).1
  unfold inRing
  rw [List.take_add_one, hmsg, List.drop_append_of_le_length (by rw [List.length_take]; omega),
    List.map_append]
  rfl

theorem inRing_pop (hlt : popped < pushed) {msg : StdString} (hmsg : msgs[popped]? = some msg) :
    inRing host msgs popped pushed =
      packedBytes host msg :: inRing host msgs (popped + 1) pushed := by
  have hget : (msgs.take pushed)[popped]? = some msg := by
    rw [List.getElem?_take, if_pos hlt, hmsg]
  obtain ⟨hin, rfl⟩ := List.getElem?_eq_some_iff.mp hget
  unfold inRing
  rw [List.drop_eq_getElem_cons hin]
  rfl

end Ring

section ProducerSteps
variable {host : Endianness} {msgs : List StdString} {p p' : Producer} {pushed : Nat}
variable (h : ProducerAt host msgs p pushed)
include h

theorem producerAt_test (hstep : p.test = some p') : ProducerAt host msgs p' pushed := by
  have hle := h.pushed_le
  have hlength := congrArg List.length h.generated
  have hphase := h.phase
  obtain ⟨hhead, rfl⟩ := Producer.test_eq hstep
  rw [hhead] at hphase
  obtain ⟨hit, hcount⟩ := hphase
  cases hhas : p.generator.hasNext with
  | true =>
    have hmore := bne_iff_ne.mp hhas
    exact { h with phase := ⟨hit, hcount, by omega⟩ }
  | false =>
    have hend := bne_eq_false_iff_eq.mp hhas
    exact { h with phase := ⟨hit, hcount, by omega⟩ }

theorem producerAt_tick {now : TimeTick} (hstep : p.tick now = some p') :
    ProducerAt host msgs p' pushed := by
  have hphase := h.phase
  obtain ⟨hentered, rfl⟩ := Producer.tick_eq hstep
  rw [hentered] at hphase
  obtain ⟨hit, hcount, hlt⟩ := hphase
  have hticked := Measurer.tick_count p.measurer now
  exact { h with phase := ⟨hit, hticked.trans (congrArg (· + 1) hcount), hlt⟩ }

theorem producerAt_resetBuffer (hstep : p.resetBuffer = some p') :
    ProducerAt host msgs p' pushed := by
  have hphase := h.phase
  obtain ⟨hticked, rfl⟩ := Producer.resetBuffer_eq hstep
  rw [hticked] at hphase
  obtain ⟨hit, hcount, hlt⟩ := hphase
  exact { h with valid := h.valid.reset, phase := ⟨hit, hcount, hlt, rfl⟩ }

theorem producerAt_pack (hfits : ∀ msg ∈ msgs, 8 + msg.bytes.length ≤ 10000)
    (hstep : p.pack host = some p') : ProducerAt host msgs p' pushed := by
  have hphase := h.phase
  obtain ⟨hreset, msg, hget, buffer, phase, rfl, hrun⟩ := Producer.pack_eq hstep
  rw [hreset] at hphase
  obtain ⟨hit, hcount, hlt, hstart⟩ := hphase
  rw [h.generated, hit] at hget
  have hfit : (packedBytes host msg).length ≤ p.buffer.room := by
    have hend : p.buffer.bufEnd.toNat = p.buffer.buf.toNat + 10000 := h.valid.end_eq
    have hmsg := hfits msg (List.mem_of_getElem? hget)
    rw [packedBytes_length]
    unfold Buffer.room
    rw [hstart]
    omega
  have hwrites : Buffer.Writes ((createPacker host .kSharedMemory).serializeString host msg)
    (packedBytes host msg) := Packer.serialize_writes host .localPacker (.string msg)
  rw [(hwrites _ h.valid).1 hfit] at hrun
  rcases hrun with ⟨hok, rfl⟩ | ⟨e, herror, _⟩
  · cases hok
    exact { valid := Buffer.append_valid h.valid hfit
            generated := h.generated
            pushed_le := h.pushed_le
            phase := ⟨congrArg (· + 1) hit, hcount, msg, hget,
              Buffer.contents_append h.valid hstart hfit⟩ }
  · cases herror

end ProducerSteps

section ConsumerSteps
variable {host : Endianness} {msgs : List StdString} {c c' : Consumer} {popped : Nat}
variable (h : ConsumerAt host msgs c popped)
include h

theorem consumerAt_test (hstep : c.test = some c') : ConsumerAt host msgs c' popped := by
  have hle := h.popped_le
  have hcapacity := h.capacity
  have hphase := h.phase
  obtain ⟨hhead, rfl⟩ := Consumer.test_eq hstep
  rw [hhead] at hphase
  obtain ⟨hmessages, hcount⟩ := hphase
  have hcount' : c.measurer.measurements.length = popped := hcount
  cases hfull : c.measurer.isFull with
  | true =>
    have hend := of_decide_eq_true hfull
    exact { h with phase := ⟨hmessages, hcount, by omega⟩ }
  | false =>
    have hmore := of_decide_eq_false hfull
    exact { h with phase := ⟨hmessages, hcount, by omega⟩ }

theorem consumerAt_resetBuffer (hstep : c.resetBuffer = some c') :
    ConsumerAt host msgs c' popped := by
  have hphase := h.phase
  obtain ⟨hentered, rfl⟩ := Consumer.resetBuffer_eq hstep
  rw [hentered] at hphase
  obtain ⟨hmessages, hcount, hlt⟩ := hphase
  exact { h with valid := h.valid.reset, phase := ⟨hmessages, hcount, hlt, rfl⟩ }

theorem consumerAt_unpack {alloc : UInt64 → Bool} (halloc : ∀ msg ∈ msgs, alloc msg.size = true)
    (hstep : c.unpack host alloc = some c') : ConsumerAt host msgs c' popped := by
  have hphase := h.phase
  obtain ⟨hpopped, hrun⟩ := Consumer.unpack_eq hstep
  rw [hpopped] at hphase
  obtain ⟨hmessages, hcount, msg, hget, hreadable⟩ := hphase
  have hreads : Buffer.Reads ((createPacker host .kSharedMemory).deserializeString host alloc)
    (packedBytes host msg) msg := Packer.deserializeString_reads host .localPacker alloc msg
      (halloc msg (List.mem_of_getElem? hget))
  rw [hreads _ h.valid hreadable] at hrun
  rcases hrun with ⟨msg', buffer, hok, rfl⟩ | ⟨e, buffer, herror, _⟩
  · cases hok
    refine { h with
      valid := Buffer.skip_valid h.valid hreadable.inside, received := ?_, phase := ?_ }
    · rw [List.length_append, List.length_singleton, List.take_add_one, hget, ← h.received]
      rfl
    · exact ⟨by rw [List.length_append]; exact hmessages, hcount⟩
  · cases herror

theorem consumerAt_tick {now : TimeTick} (hstep : c.tick now = some c') :
    ConsumerAt host msgs c' popped := by
  have hle := h.popped_le
  have hcapacity := h.capacity
  have hphase := h.phase
  obtain ⟨hunpacked, rfl⟩ := Consumer.tick_eq hstep
  rw [hunpacked] at hphase
  obtain ⟨hmessages, hcount⟩ := hphase
  have hbelow : c.measurer.measurements.length < c.measurer.capacity := by
    have hcount' : c.measurer.measurements.length + 1 = popped := hcount
    omega
  have htick : c.measurer.tick now =
    { c.measurer with measurements := c.measurer.measurements ++ [now] } :=
      Measurer.emplaceBack_of_lt hbelow now
  refine { h with capacity := ?_, phase := ⟨hmessages, ?_⟩ }
  · rw [htick]
    exact hcapacity
  · exact (Measurer.tick_count _ _).trans hcount

end ConsumerSteps

namespace RunAt
variable {host : Endianness} {alloc : UInt64 → Bool} {capacity : Nat} {msgs : List StdString}
variable {s s' : MeasurementRun} {pushed popped : Nat}

theorem packed_payload (h : RunAt host capacity msgs s pushed popped)
    (hmsgs : Transferable alloc capacity msgs) (hpacked : s.producer.phase = .packed) :
    ∃ msg, msgs[pushed]? = some msg ∧
      Memory.slice s.producer.buffer.data 0 s.producer.buffer.usedBytes.toNat =
        packedBytes host msg ∧
      4 + s.producer.buffer.usedBytes.toNat ≤ s.ring.capacity.toNat := by
  have hphase := h.producer.phase
  rw [hpacked] at hphase
  obtain ⟨_, _, msg, hget, hcontents⟩ := hphase
  have hlength := congrArg List.length hcontents
  unfold Buffer.contents at hlength
  rw [Memory.slice_length, packedBytes_length] at hlength
  have hfits := hmsgs.fits_ring msg (List.mem_of_getElem? hget)
  rw [← h.capacity] at hfits
  exact ⟨msg, hget, hcontents, by omega⟩

theorem push (h : RunAt host capacity msgs s pushed popped)
    (hmsgs : Transferable alloc capacity msgs) {ring : SPSCRingBuffer} {producer : Producer}
    (hstep : s.producer.push host s.ring = some (ring, producer)) :
    RunAt host capacity msgs { s with ring, producer } (pushed + 1) popped := by
  obtain ⟨q, hring⟩ := h.ring
  have hphase := h.producer.phase
  obtain ⟨hpacked, phase, rfl, hrun⟩ := Producer.push_eq hstep
  obtain ⟨msg, hget, hpayload, hfit⟩ := h.packed_payload hmsgs hpacked
  rw [hpacked] at hphase
  obtain ⟨hit, hcount, _⟩ := hphase
  rcases Nat.lt_or_ge s.ring.capacity.toNat
    (recordSpace s.producer.buffer.usedBytes.toNat +
      unreadSpace (inRing host msgs popped pushed)) with hfull | hroom
  · rw [hring.push_waits s.producer.buffer.data hfit hfull] at hrun
    rcases hrun with ⟨hok, _⟩ | ⟨e, herror, _⟩
    · cases hok
    · cases herror
  · obtain ⟨ring', hpush, hcap, _, hring'⟩ :=
      hring.push_appends s.producer.buffer.data hfit hroom
    rw [hpush] at hrun
    rw [hpayload, ← inRing_push host h.order hget] at hring'
    rcases hrun with ⟨hok, rfl⟩ | ⟨e, herror, _⟩
    · cases hok
      exact { producer := { h.producer with
                pushed_le := (List.getElem?_eq_some_iff.mp hget).1
                phase := ⟨hit, hcount⟩ }
              consumer := h.consumer
              order := Nat.le_succ_of_le h.order
              capacity := hcap ▸ h.capacity
              ring := ⟨q, hring'⟩ }
    · cases herror

/-- Where the ring is empty a Pop waits, and otherwise the next message is on top. -/
theorem next_message (h : RunAt host capacity msgs s pushed popped) (hlt : popped < pushed) :
    ∃ msg, msgs[popped]? = some msg ∧ inRing host msgs popped pushed =
      packedBytes host msg :: inRing host msgs (popped + 1) pushed := by
  have hin : popped < msgs.length := Nat.lt_of_lt_of_le hlt h.producer.pushed_le
  exact ⟨msgs[popped], List.getElem?_eq_getElem hin,
    inRing_pop host hlt (List.getElem?_eq_getElem hin)⟩

theorem pop_run (h : RunAt host capacity msgs s pushed popped)
    (hmsgs : Transferable alloc capacity msgs) (hlt : popped < pushed) {msg : StdString}
    (hget : msgs[popped]? = some msg) :
    ∃ ring' q', (SPSCRingBuffer.pop host s.consumer.buffer.capacity).run
          ⟨s.ring, s.consumer.buffer.data⟩ =
        .ok (some (UInt64.ofNat (packedBytes host msg).length))
          ⟨ring', Memory.store s.consumer.buffer.data 0 (packedBytes host msg)⟩ ∧
      ring'.capacity = s.ring.capacity ∧
      Represents host ring' (inRing host msgs (popped + 1) pushed) q' := by
  obtain ⟨q, hring⟩ := h.ring
  rw [inRing_pop host hlt hget] at hring
  have hroom : (packedBytes host msg).length ≤ s.consumer.buffer.capacity.toNat := by
    rw [packedBytes_length]
    exact hmsgs.fits_buffer msg (List.mem_of_getElem? hget)
  obtain ⟨ring', hrun, hcap, _, _, hring'⟩ := hring.pop_takes s.consumer.buffer.data hroom
  rw [Memory.memcpy_eq_store, Memory.slice_ofList] at hrun
  exact ⟨ring', _, hrun, hcap, hring'⟩

theorem pop (h : RunAt host capacity msgs s pushed popped)
    (hmsgs : Transferable alloc capacity msgs) {ring : SPSCRingBuffer} {consumer : Consumer}
    (hstep : s.consumer.pop host s.ring = some (ring, consumer)) :
    RunAt host capacity msgs { s with ring, consumer } pushed (popped + 1) := by
  obtain ⟨q, hring⟩ := h.ring
  have hphase := h.consumer.phase
  obtain ⟨hreset, msgBuf, phase, rfl, hrun⟩ := Consumer.pop_eq hstep
  rw [hreset] at hphase
  obtain ⟨hmessages, hcount, hmore, hstart⟩ := hphase
  rcases Nat.lt_or_ge popped pushed with hlt | hempty
  · obtain ⟨msg, hget, _⟩ := h.next_message hlt
    obtain ⟨ring', q', hpop, hcap, hring'⟩ := h.pop_run hmsgs hlt hget
    rw [hpop] at hrun
    have hfit : (packedBytes host msg).length ≤ 10000 := by
      rw [packedBytes_length]
      exact hmsgs.fits_buffer msg (List.mem_of_getElem? hget)
    rcases hrun with ⟨⟨size, hok⟩, rfl⟩ | ⟨e, herror, _⟩
    · cases hok
      refine { producer := h.producer, consumer := ?_, order := hlt,
               capacity := hcap ▸ h.capacity, ring := ⟨q', hring'⟩ }
      dsimp only
      rw [Buffer.withData_store]
      exact { h.consumer with
        valid := Buffer.fill_valid h.consumer.valid _
        popped_le := hmore
        phase := ⟨congrArg (· + 1) hmessages, congrArg (· + 1) hcount, msg, hmessages ▸ hget,
          Buffer.readable_fill h.consumer.valid hstart hfit⟩ }
    · cases herror
  · rw [inRing_empty host hempty] at hring
    rw [hring.pop_waits] at hrun
    rcases hrun with ⟨⟨size, hok⟩, _⟩ | ⟨e, herror, _⟩
    · cases hok
    · cases herror

theorem start {host : Endianness} {capacity : UInt32} (hcapacity : capacity.toNat % 4 = 0)
    (ringBuffer : Memory UInt8) {generator : SimpleRoundGenerator} {chunksTotalCount : UInt64}
    (hcount : generator.msgs.length = chunksTotalCount.toNat) {producerBuffer consumerBuffer : Buffer}
    (hproducer : producerBuffer.Valid) (hconsumer : consumerBuffer.Valid) :
    RunAt host capacity.toNat generator.msgs
      (MeasurementRun.start (SPSCRingBuffer.initial capacity ringBuffer) generator
        chunksTotalCount producerBuffer consumerBuffer) 0 0 where
  producer := ⟨hproducer, rfl, Nat.zero_le _, rfl, rfl⟩
  consumer := ⟨hconsumer, hcount.symm, rfl, Nat.zero_le _, rfl, rfl⟩
  order := Nat.le_refl 0
  capacity := rfl
  ring := ⟨0, Represents.of_initial host hcapacity ringBuffer⟩

theorem step (h : RunAt host capacity msgs s pushed popped)
    (hmsgs : Transferable alloc capacity msgs) {e : RunEvent}
    (hstep : MeasurementRun.Steps host alloc s e s') :
    ∃ pushed' popped', RunAt host capacity msgs s' pushed' popped' := by
  cases e with
  | producerTest =>
    obtain ⟨p, hp, rfl⟩ := Option.map_eq_some_iff.mp hstep
    exact ⟨pushed, popped, { h with producer := producerAt_test h.producer hp }⟩
  | producerTick now =>
    obtain ⟨p, hp, rfl⟩ := Option.map_eq_some_iff.mp hstep
    exact ⟨pushed, popped, { h with producer := producerAt_tick h.producer hp }⟩
  | producerReset =>
    obtain ⟨p, hp, rfl⟩ := Option.map_eq_some_iff.mp hstep
    exact ⟨pushed, popped, { h with producer := producerAt_resetBuffer h.producer hp }⟩
  | pack =>
    obtain ⟨p, hp, rfl⟩ := Option.map_eq_some_iff.mp hstep
    exact ⟨pushed, popped, { h with producer := producerAt_pack h.producer hmsgs.fits_buffer hp }⟩
  | push =>
    obtain ⟨⟨ring, p⟩, hp, rfl⟩ := Option.map_eq_some_iff.mp hstep
    exact ⟨pushed + 1, popped, h.push hmsgs hp⟩
  | consumerTest =>
    obtain ⟨c, hc, rfl⟩ := Option.map_eq_some_iff.mp hstep
    exact ⟨pushed, popped, { h with consumer := consumerAt_test h.consumer hc }⟩
  | consumerReset =>
    obtain ⟨c, hc, rfl⟩ := Option.map_eq_some_iff.mp hstep
    exact ⟨pushed, popped, { h with consumer := consumerAt_resetBuffer h.consumer hc }⟩
  | pop =>
    obtain ⟨⟨ring, c⟩, hc, rfl⟩ := Option.map_eq_some_iff.mp hstep
    exact ⟨pushed, popped + 1, h.pop hmsgs hc⟩
  | unpack =>
    obtain ⟨c, hc, rfl⟩ := Option.map_eq_some_iff.mp hstep
    exact ⟨pushed, popped, { h with consumer := consumerAt_unpack h.consumer hmsgs.alloc hc }⟩
  | consumerTick now =>
    obtain ⟨c, hc, rfl⟩ := Option.map_eq_some_iff.mp hstep
    exact ⟨pushed, popped, { h with consumer := consumerAt_tick h.consumer hc }⟩

theorem not_failed (h : RunAt host capacity msgs s pushed popped) (e : Failure) :
    s.producer.phase ≠ .failed e ∧ s.consumer.phase ≠ .failed e := by
  have hproducer := h.producer.phase
  have hconsumer := h.consumer.phase
  constructor
  · intro hfailed
    rw [hfailed] at hproducer
    exact hproducer
  · intro hfailed
    rw [hfailed] at hconsumer
    exact hconsumer

/-- A producer that may push, while the ring is empty, does. -/
theorem push_enabled (h : RunAt host capacity msgs s pushed popped)
    (hmsgs : Transferable alloc capacity msgs) (hpacked : s.producer.phase = .packed)
    (hempty : pushed ≤ popped) : ∃ s', MeasurementRun.Steps host alloc s .push s' := by
  obtain ⟨q, hring⟩ := h.ring
  obtain ⟨msg, hget, hpayload, hfit⟩ := h.packed_payload hmsgs hpacked
  rw [inRing_empty host hempty] at hring
  have haligned := hring.aligned
  have hroom : recordSpace s.producer.buffer.usedBytes.toNat + unreadSpace [] ≤
      s.ring.capacity.toNat := by
    rw [unreadSpace_nil, Nat.add_zero]
    exact (recordSpace_le_iff haligned).mpr hfit
  obtain ⟨ring', hrun, _⟩ := hring.push_appends s.producer.buffer.data hfit hroom
  refine ⟨{ s with ring := ring', producer := { s.producer with phase := .head } }, ?_⟩
  unfold MeasurementRun.Steps MeasurementRun.step Producer.push
  rw [hpacked]
  dsimp only
  rw [hrun]
  rfl

theorem pop_enabled (h : RunAt host capacity msgs s pushed popped)
    (hmsgs : Transferable alloc capacity msgs) (hreset : s.consumer.phase = .reset)
    (hlt : popped < pushed) : ∃ s', MeasurementRun.Steps host alloc s .pop s' := by
  obtain ⟨msg, hget, _⟩ := h.next_message hlt
  obtain ⟨ring', _, hrun, _⟩ := h.pop_run hmsgs hlt hget
  unfold MeasurementRun.Steps MeasurementRun.step Consumer.pop
  rw [hreset]
  dsimp only
  rw [hrun]
  exact ⟨_, rfl⟩

/-- Everything the producer does besides Push never waits. -/
theorem producer_enabled (h : RunAt host capacity msgs s pushed popped)
    (hpacked : s.producer.phase ≠ .packed) (hfinished : s.producer.phase ≠ .finished) :
    ∃ e s', MeasurementRun.Steps host alloc s e s' := by
  have hphase := h.producer.phase
  unfold MeasurementRun.Steps
  cases hp : s.producer.phase with
  | head =>
    refine ⟨.producerTest, ?_⟩
    unfold MeasurementRun.step Producer.test
    rw [hp]
    exact ⟨_, rfl⟩
  | entered =>
    refine ⟨.producerTick 0, ?_⟩
    unfold MeasurementRun.step Producer.tick
    rw [hp]
    exact ⟨_, rfl⟩
  | ticked =>
    refine ⟨.producerReset, ?_⟩
    unfold MeasurementRun.step Producer.resetBuffer
    rw [hp]
    exact ⟨_, rfl⟩
  | reset =>
    rw [hp] at hphase
    obtain ⟨hit, _, hlt, _⟩ := hphase
    have hget : s.producer.generator.msgs[s.producer.generator.itMsgs]? = some msgs[pushed] := by
      rw [h.producer.generated, hit]
      exact List.getElem?_eq_getElem hlt
    refine ⟨.pack, ?_⟩
    unfold MeasurementRun.step Producer.pack SimpleRoundGenerator.next
    rw [hp, hget]
    dsimp only [Option.map_some]
    split
    · exact ⟨_, rfl⟩
    · exact ⟨_, rfl⟩
  | packed => exact absurd hp hpacked
  | finished => exact absurd hp hfinished
  | failed e => exact absurd hp (h.not_failed e).1

/-- Everything the consumer does besides Pop never waits. -/
theorem consumer_enabled (h : RunAt host capacity msgs s pushed popped)
    (hreset : s.consumer.phase ≠ .reset) (hfinished : s.consumer.phase ≠ .finished) :
    ∃ e s', MeasurementRun.Steps host alloc s e s' := by
  unfold MeasurementRun.Steps
  cases hc : s.consumer.phase with
  | head =>
    refine ⟨.consumerTest, ?_⟩
    unfold MeasurementRun.step Consumer.test
    rw [hc]
    exact ⟨_, rfl⟩
  | entered =>
    refine ⟨.consumerReset, ?_⟩
    unfold MeasurementRun.step Consumer.resetBuffer
    rw [hc]
    exact ⟨_, rfl⟩
  | popped =>
    refine ⟨.unpack, ?_⟩
    unfold MeasurementRun.step Consumer.unpack
    rw [hc]
    dsimp only
    split
    · exact ⟨_, rfl⟩
    · exact ⟨_, rfl⟩
  | unpacked =>
    refine ⟨.consumerTick 0, ?_⟩
    unfold MeasurementRun.step Consumer.tick
    rw [hc]
    exact ⟨_, rfl⟩
  | reset => exact absurd hc hreset
  | finished => exact absurd hc hfinished
  | failed e => exact absurd hc (h.not_failed e).2

/-- No schedule gets stuck before both loops ended: only Push and Pop wait, and not
both at a time. -/
theorem progress (h : RunAt host capacity msgs s pushed popped)
    (hmsgs : Transferable alloc capacity msgs)
    (hwork : ¬ (s.producer.phase = .finished ∧ s.consumer.phase = .finished)) :
    ∃ e s', MeasurementRun.Steps host alloc s e s' := by
  have hproducer := h.producer.phase
  have hconsumer := h.consumer.phase
  have horder := h.order
  by_cases hpacked : s.producer.phase = .packed
  · rw [hpacked] at hproducer
    obtain ⟨_, _, _, hget, _⟩ := hproducer
    have hpushed := (List.getElem?_eq_some_iff.mp hget).1
    rcases Nat.lt_or_ge popped pushed with hlt | hempty
    · by_cases hreset : s.consumer.phase = .reset
      · exact ⟨_, h.pop_enabled hmsgs hreset hlt⟩
      · by_cases hfinished : s.consumer.phase = .finished
        · rw [hfinished] at hconsumer
          obtain ⟨_, _, hall⟩ := hconsumer
          omega
        · exact h.consumer_enabled hreset hfinished
    · exact ⟨_, h.push_enabled hmsgs hpacked hempty⟩
  · by_cases hpfinished : s.producer.phase = .finished
    · rw [hpfinished] at hproducer
      obtain ⟨_, _, hall⟩ := hproducer
      by_cases hreset : s.consumer.phase = .reset
      · rw [hreset] at hconsumer
        obtain ⟨_, _, hmore, _⟩ := hconsumer
        exact ⟨_, h.pop_enabled hmsgs hreset (by omega)⟩
      · exact h.consumer_enabled hreset fun hcfinished => hwork ⟨hpfinished, hcfinished⟩
    · exact h.producer_enabled hpacked hpfinished

end RunAt

/-! What the trace of a run says about the two sides. -/

/-- Events and state agree on the readings, the packs and the unpacks, and each message's
events come in their order. -/
structure TraceAt (events : List RunEvent) (s : MeasurementRun) : Prop where
  producerTicks : s.producer.measurer.measurements = events.filterMap RunEvent.producerReading
  consumerTicks : s.consumer.measurer.measurements = events.filterMap RunEvent.consumerReading
  packs : events.countP RunEvent.isPack = s.producer.generator.itMsgs
  unpacks : events.countP RunEvent.isUnpack = s.consumer.messages.length
  tick_pack : Precedes (fun e => e.producerReading.isSome) RunEvent.isPack events
  pack_unpack : Precedes RunEvent.isPack RunEvent.isUnpack events
  unpack_tick : Precedes RunEvent.isUnpack (fun e => e.consumerReading.isSome) events

/-- What a step adds to the readings, the packs and the unpacks. -/
structure Observed (s : MeasurementRun) (e : RunEvent) (s' : MeasurementRun) : Prop where
  producerTicks : s'.producer.measurer.measurements =
    s.producer.measurer.measurements ++ e.producerReading.toList
  consumerTicks : s'.consumer.measurer.measurements =
    s.consumer.measurer.measurements ++ e.consumerReading.toList
  packs : s'.producer.generator.itMsgs = s.producer.generator.itMsgs + e.isPack.toNat
  unpacks : s'.consumer.messages.length = s.consumer.messages.length + e.isUnpack.toNat

section Trace
variable {host : Endianness} {alloc : UInt64 → Bool} {capacity : Nat} {msgs : List StdString}
variable {s s' : MeasurementRun} {pushed popped : Nat}

theorem Observed.unchanged {e : RunEvent} (hproducer : e.producerReading = none)
    (hconsumer : e.consumerReading = none) (hpack : e.isPack = false) (hunpack : e.isUnpack = false)
    (hpm : s'.producer.measurer = s.producer.measurer)
    (hpg : s'.producer.generator = s.producer.generator)
    (hcm : s'.consumer.measurer = s.consumer.measurer)
    (hcl : s'.consumer.messages = s.consumer.messages) : Observed s e s' := by
  constructor
  · rw [hpm, hproducer, Option.toList_none, List.append_nil]
  · rw [hcm, hconsumer, Option.toList_none, List.append_nil]
  · rw [hpg, hpack]
    rfl
  · rw [hcl, hunpack]
    rfl

theorem observed_step (h : RunAt host capacity msgs s pushed popped)
    (hmsgs : Transferable alloc capacity msgs) {e : RunEvent}
    (hstep : MeasurementRun.Steps host alloc s e s') : Observed s e s' := by
  cases e with
  | producerTest =>
    obtain ⟨p, hp, rfl⟩ := Option.map_eq_some_iff.mp hstep
    obtain ⟨_, rfl⟩ := Producer.test_eq hp
    exact .unchanged rfl rfl rfl rfl rfl rfl rfl rfl
  | producerTick now =>
    obtain ⟨p, hp, rfl⟩ := Option.map_eq_some_iff.mp hstep
    obtain ⟨_, rfl⟩ := Producer.tick_eq hp
    exact ⟨rfl, (List.append_nil _).symm, rfl, rfl⟩
  | producerReset =>
    obtain ⟨p, hp, rfl⟩ := Option.map_eq_some_iff.mp hstep
    obtain ⟨_, rfl⟩ := Producer.resetBuffer_eq hp
    exact .unchanged rfl rfl rfl rfl rfl rfl rfl rfl
  | pack =>
    obtain ⟨p, hp, rfl⟩ := Option.map_eq_some_iff.mp hstep
    obtain ⟨_, _, _, _, _, rfl, _⟩ := Producer.pack_eq hp
    exact ⟨(List.append_nil _).symm, (List.append_nil _).symm, rfl, rfl⟩
  | push =>
    obtain ⟨⟨ring, p⟩, hp, rfl⟩ := Option.map_eq_some_iff.mp hstep
    obtain ⟨_, _, rfl, _⟩ := Producer.push_eq hp
    exact .unchanged rfl rfl rfl rfl rfl rfl rfl rfl
  | consumerTest =>
    obtain ⟨c, hc, rfl⟩ := Option.map_eq_some_iff.mp hstep
    obtain ⟨_, rfl⟩ := Consumer.test_eq hc
    exact .unchanged rfl rfl rfl rfl rfl rfl rfl rfl
  | consumerReset =>
    obtain ⟨c, hc, rfl⟩ := Option.map_eq_some_iff.mp hstep
    obtain ⟨_, rfl⟩ := Consumer.resetBuffer_eq hc
    exact .unchanged rfl rfl rfl rfl rfl rfl rfl rfl
  | pop =>
    obtain ⟨⟨ring, c⟩, hc, rfl⟩ := Option.map_eq_some_iff.mp hstep
    obtain ⟨_, _, _, rfl, _⟩ := Consumer.pop_eq hc
    exact .unchanged rfl rfl rfl rfl rfl rfl rfl rfl
  | unpack =>
    obtain ⟨c, hc, rfl⟩ := Option.map_eq_some_iff.mp hstep
    have hkept := consumerAt_unpack h.consumer hmsgs.alloc hc
    obtain ⟨_, ⟨_, _, _, rfl⟩ | ⟨_, _, _, rfl⟩⟩ := Consumer.unpack_eq hc
    · exact ⟨(List.append_nil _).symm, (List.append_nil _).symm, rfl, List.length_append⟩
    · exact absurd hkept.phase id
  | consumerTick now =>
    obtain ⟨c, hc, rfl⟩ := Option.map_eq_some_iff.mp hstep
    obtain ⟨_, rfl⟩ := Consumer.tick_eq hc
    exact ⟨(List.append_nil _).symm, rfl, rfl, rfl⟩

theorem pack_guard (h : RunAt host capacity msgs s pushed popped)
    (hstep : MeasurementRun.Steps host alloc s .pack s') :
    s.producer.generator.itMsgs < s.producer.measurer.count := by
  have hphase := h.producer.phase
  obtain ⟨p, hp, _⟩ := Option.map_eq_some_iff.mp hstep
  obtain ⟨hreset, _⟩ := Producer.pack_eq hp
  rw [hreset] at hphase
  obtain ⟨hit, hcount, _⟩ := hphase
  omega

theorem pushed_le_packs (h : RunAt host capacity msgs s pushed popped) :
    pushed ≤ s.producer.generator.itMsgs := by
  have hphase := h.producer.phase
  cases hp : s.producer.phase with
  | failed e => exact absurd hp (h.not_failed e).1
  | _ =>
    rw [hp] at hphase
    have hit := hphase.1
    omega

theorem unpack_guard (h : RunAt host capacity msgs s pushed popped)
    (hstep : MeasurementRun.Steps host alloc s .unpack s') :
    s.consumer.messages.length < s.producer.generator.itMsgs := by
  have hphase := h.consumer.phase
  have horder := h.order
  have hpacks := pushed_le_packs h
  obtain ⟨c, hc, _⟩ := Option.map_eq_some_iff.mp hstep
  obtain ⟨hpopped, _⟩ := Consumer.unpack_eq hc
  rw [hpopped] at hphase
  obtain ⟨hmessages, _⟩ := hphase
  omega

theorem consumerTick_guard (h : RunAt host capacity msgs s pushed popped) {now : TimeTick}
    (hstep : MeasurementRun.Steps host alloc s (.consumerTick now) s') :
    s.consumer.measurer.count < s.consumer.messages.length := by
  have hphase := h.consumer.phase
  obtain ⟨c, hc, _⟩ := Option.map_eq_some_iff.mp hstep
  obtain ⟨hunpacked, _⟩ := Consumer.tick_eq hc
  rw [hunpacked] at hphase
  obtain ⟨hmessages, hcount⟩ := hphase
  omega

theorem filterMap_singleton {ε τ : Type} (f : ε → Option τ) (e : ε) :
    [e].filterMap f = (f e).toList := by
  cases he : f e with
  | none => rw [List.filterMap_cons_none he]; rfl
  | some a => rw [List.filterMap_cons_some he]; rfl

theorem TraceAt.start (ring : SPSCRingBuffer) (generator : SimpleRoundGenerator)
    (chunksTotalCount : UInt64) (producerBuffer consumerBuffer : Buffer) :
    TraceAt [] (MeasurementRun.start ring generator chunksTotalCount producerBuffer
      consumerBuffer) :=
  ⟨rfl, rfl, rfl, rfl, .nil, .nil, .nil⟩

theorem TraceAt.step {events : List RunEvent} (ht : TraceAt events s)
    (h : RunAt host capacity msgs s pushed popped) (hmsgs : Transferable alloc capacity msgs)
    {e : RunEvent} (hstep : MeasurementRun.Steps host alloc s e s') :
    TraceAt (events ++ [e]) s' := by
  have hobserved := observed_step h hmsgs hstep
  have hticks : events.countP (fun e => e.producerReading.isSome) = s.producer.measurer.count := by
    rw [← List.length_filterMap_eq_countP, ← ht.producerTicks]
    rfl
  have hctick : events.countP (fun e => e.consumerReading.isSome) = s.consumer.measurer.count := by
    rw [← List.length_filterMap_eq_countP, ← ht.consumerTicks]
    rfl
  constructor
  · rw [hobserved.producerTicks, List.filterMap_append, ← ht.producerTicks, filterMap_singleton]
  · rw [hobserved.consumerTicks, List.filterMap_append, ← ht.consumerTicks, filterMap_singleton]
  · rw [hobserved.packs, List.countP_append, ht.packs, List.countP_singleton]
    cases e.isPack <;> rfl
  · rw [hobserved.unpacks, List.countP_append, ht.unpacks, List.countP_singleton]
    cases e.isUnpack <;> rfl
  · apply ht.tick_pack.append
    intro hpack
    rw [ht.packs, hticks]
    cases e with
    | pack => exact pack_guard h hstep
    | _ => cases hpack
  · apply ht.pack_unpack.append
    intro hunpack
    rw [ht.packs, ht.unpacks]
    cases e with
    | unpack => exact unpack_guard h hstep
    | _ => cases hunpack
  · apply ht.unpack_tick.append
    intro htick
    rw [ht.unpacks, hctick]
    cases e with
    | consumerTick now => exact consumerTick_guard h hstep
    | _ => cases htick

theorem runAt_of_run {s₀ : MeasurementRun} {events : List RunEvent}
    (hmsgs : Transferable alloc capacity msgs) (h0 : RunAt host capacity msgs s₀ 0 0)
    (ht : TraceAt [] s₀) (hrun : Run (MeasurementRun.Steps host alloc) s₀ events s) :
    ∃ pushed popped, RunAt host capacity msgs s pushed popped ∧ TraceAt events s := by
  apply hrun.invariant_history
    (I := fun events s => ∃ pushed popped, RunAt host capacity msgs s pushed popped ∧
      TraceAt events s) ⟨0, 0, h0, ht⟩
  rintro es t e u ⟨pushed, popped, h, ht⟩ hstep
  obtain ⟨pushed', popped', h'⟩ := h.step hmsgs hstep
  exact ⟨pushed', popped', h', ht.step h hmsgs hstep⟩

end Trace
end IpcChecker
