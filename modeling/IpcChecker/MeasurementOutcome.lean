import IpcChecker.Media

/-!
# Processes that count on different numbers of chunks

Each process is told the number of chunks by its own arguments. Whatever the three numbers
are, all schedules come to one state, in which some of the threads may be waiting for ever:
for chunks or ticks that nobody sends, or for room that nobody makes.
-/

namespace IpcChecker.Actors
open Shared
set_option autoImplicit false

/-- There is room for all of these messages at once. -/
def Transport.Holds (transport : Transport) (messages : List (List UInt8)) : Prop :=
  Fifo.load transport.weight messages ≤ transport.capacity

instance (transport : Transport) (messages : List (List UInt8)) :
    Decidable (transport.Holds messages) := inferInstanceAs (Decidable (_ ≤ _))

namespace Setup
variable (setup : Setup)

/-! The packed forms of the ticks. -/

def producerTickBytes (tick : TimeTick) : List UInt8 :=
  Packer.fieldBytes setup.producerHost setup.producerMeasurerConnectionPacker (.timePoint tick)

def consumerTickBytes (tick : TimeTick) : List UInt8 :=
  Packer.fieldBytes setup.consumerHost setup.consumerMeasurerConnectionPacker (.timePoint tick)

end Setup

section Rests
variable {setup : Setup} {transport : Connection → Transport}

/-- A thread at rest: finished if it could get everything done, and otherwise a call of it on one
of these connections, which are in these states, has to wait. -/
inductive Rests (setup : Setup) (transport : Connection → Transport) (connections : Set Connection)
    (channel : Connection → List (List UInt8)) (complete : Prop) (i : Thread)
    (q : Setup.Local i) : Prop where
  | finished : complete → Finished i q → Rests setup transport connections channel complete i q
  | waits {c : Connection} : ¬ complete → c ∈ connections →
      Network.WaitsOn (links transport) c (channel c) (setup.request i q) →
      Rests setup transport connections channel complete i q

namespace Rests
variable {connections : Set Connection} {channel channel' : Connection → List (List UInt8)}
variable {complete : Prop} {i : Thread} {q : Setup.Local i}

theorem finished_iff (h : Rests setup transport connections channel complete i q) :
    Finished i q ↔ complete := by
  cases h with
  | finished hcomplete hfinished => exact iff_of_true hfinished hcomplete
  | waits hcomplete _ hwaits =>
    exact iff_of_false (fun hfinished => hwaits.not_halt hfinished.halts) hcomplete

theorem not_failed (h : Rests setup transport connections channel complete i q) :
    ¬ ThreadFailed i q := by
  cases h with
  | finished _ hfinished => exact hfinished.not_failed
  | waits _ _ hwaits => exact fun hfailed => hwaits.not_halt hfailed.halts

theorem idle (h : Rests setup transport connections channel complete i q) :
    Network.Idle (links transport) channel (setup.request i q) := by
  cases h with
  | finished _ hfinished =>
    rw [hfinished.halts]
    exact .halt
  | waits _ _ hwaits => exact hwaits.idle

/-- Other connections do not wake it. -/
theorem frame (h : Rests setup transport connections channel complete i q)
    (hsame : ∀ c ∈ connections, channel' c = channel c) :
    Rests setup transport connections channel' complete i q := by
  cases h with
  | finished hcomplete hfinished => exact .finished hcomplete hfinished
  | waits hcomplete hmem hwaits => exact .waits hcomplete hmem (by rwa [hsame _ hmem])

theorem of_iff {complete' : Prop} {connections' : Set Connection}
    (h : Rests setup transport connections channel complete i q) (hiff : complete ↔ complete')
    (hsub : connections ⊆ connections') :
    Rests setup transport connections' channel complete' i q := by
  cases h with
  | finished hcomplete hfinished => exact .finished (hiff.mp hcomplete) hfinished
  | waits hcomplete hmem hwaits => exact .waits (mt hiff.mpr hcomplete) (hsub hmem) hwaits

end Rests
end Rests

section TickStream
variable {setup : Setup} {transport : Connection → Transport} {i j : Thread} {c : Connection}
variable {host host' : Endianness} {packer packer' : Packer} {embed : TickSender → Setup.Local i}
variable {embed' : Worker → Setup.Local j} {ticks : List TimeTick} {capacity wanted : Nat}
variable {s : Network.State setup.network (links transport)}

/-- A thread has the loop over its ticks as a part. -/
structure SendsTicks (setup : Setup) (host : Endianness) (packer : Packer) (c : Connection)
    {i : Thread} (embed : TickSender → Setup.Local i) : Prop where
  request : ∀ t, setup.request i (embed t) = (TickSender.request host packer c t).map embed
  finished : ∀ t, t.stage = .finished → Finished i (embed t)

/-- A thread is a worker of the Analyzer. -/
structure WantsTicks (setup : Setup) (host : Endianness) (packer : Packer) (c : Connection)
    {j : Thread} (embed : Worker → Setup.Local j) : Prop where
  request : ∀ w, setup.request j (embed w) = (Worker.request host packer c w).map embed
  finished : ∀ w, w.stage = .finished → Finished j (embed w)

/-- A worker with all the ticks that there are finishes, or stays with its empty connection. -/
theorem WantsTicks.settles (transport : Connection → Transport)
    (h : WantsTicks setup host' packer' c embed') (hle : ticks.length ≤ wanted)
    (buffer : Buffer) (us : List TimeTick)
    {channel : Connection → List (List UInt8)}
    (hempty : ticks.length < wanted → channel c = []) :
    ∃ w : Worker, Silent (setup.request j) (embed' ⟨⟨ticks, wanted, 0⟩, buffer, .isFull⟩) us
        (embed' w) us ∧ w.measurer.measurements = ticks ∧
      Rests setup transport {c} channel (wanted ≤ ticks.length) j (embed' w) := by
  rcases Nat.lt_or_ge ticks.length wanted with hlt | hge
  · refine ⟨_, (Worker.waits host' packer' c buffer hlt us).map h.request, rfl,
      .waits (Nat.not_le.mpr hlt) rfl ?_⟩
    rw [h.request, hempty hlt]
    exact .receive rfl
  · have hfull : (⟨ticks, wanted, 0⟩ : Measurer).isFull = true :=
      decide_eq_true (Nat.le_antisymm hle hge)
    exact ⟨_, (Worker.ends host' packer' c hfull us).map h.request, rfl,
      .finished hge (h.finished _ rfl)⟩

/-- A sender of ticks and a worker, each with its own count, come to rest. -/
theorem leads_tick_stream (hij : i ≠ j) (hsender : SendsTicks setup host packer c embed)
    (hreceiver : WantsTicks setup host' packer' c embed')
    (hformat : ∀ tick, Packer.fieldBytes host packer (.timePoint tick) =
      Packer.fieldBytes host' packer' (.timePoint tick))
    (hfit : ∀ message : List UInt8, message.length = 8 →
      (transport c).weight message ≤ (transport c).capacity)
    {buffer buffer' : Buffer} (hb : buffer.Valid) (hb' : buffer'.Valid)
    (hp : s.process i = embed ⟨⟨ticks, capacity, 0⟩, buffer, .hasNext⟩)
    (hw : s.process j = embed' ⟨⟨[], wanted, 0⟩, buffer', .isFull⟩)
    (hempty : s.channel c = ([] : List (List UInt8))) :
    ∃ t pending, setup.network.Leads (links transport) s t ∧
      t.channel = Function.update s.channel c pending ∧
      (∃ p, t.process i = p ∧ Rests setup transport {c} t.channel
        ((transport c).Holds ((ticks.map fun tick =>
          Packer.fieldBytes host packer (.timePoint tick)).drop wanted)) i p) ∧
      (∃ w : Worker, t.process j = embed' w ∧ w.measurer.measurements = ticks.take wanted ∧
        Rests setup transport {c} t.channel (wanted ≤ ticks.length) j (embed' w)) ∧
      ∀ k, k ≠ i → k ≠ j → t.process k = s.process k := by
  have hfits : ∀ message ∈ ticks.map fun tick => Packer.fieldBytes host packer (.timePoint tick),
      (transport c).weight message ≤ (transport c).capacity := by
    intro message hmem
    obtain ⟨tick, _, rfl⟩ := List.mem_map.mp hmem
    apply hfit
    rw [Packer.fieldBytes_length]
    rfl
  obtain ⟨p, ts, r, us, pending, hleads, ⟨unpacked, _, rfl⟩, hsettled⟩ :=
    Network.leads_conversation (N := setup.network)
      (A := TicksSentAt embed ticks capacity) (B := TicksWantedAt embed' ticks wanted)
      hij (fun k message hget {_ _} hA => tick_gives hsender.request hget hA)
      (fun k message (hk : k < wanted) hget {_ _} hB =>
        tick_takes hreceiver.request hformat hk hget hB) hfits
      ⟨buffer, hb, hp⟩ ⟨buffer', hb', hw⟩ hempty
  rw [List.length_map] at hleads hsettled
  have htaken : ticks.take (min ticks.length wanted) = ticks.take wanted := by
    rw [Nat.min_comm, ← List.take_take, List.take_length]
  have hcount : (wanted ≤ (ticks.take wanted).length) = (wanted ≤ ticks.length) := by
    rw [List.length_take, le_min_iff, eq_iff_iff, and_iff_right (Nat.le_refl _)]
  let channel : Connection → List (List UInt8) := Function.update s.channel c pending
  have hchannel : channel c = pending := Function.update_self _ _ _
  have hnone : (ticks.take wanted).length < wanted → channel c = [] := by
    intro hlt
    have hrest : (ticks.map fun tick => Packer.fieldBytes host packer (.timePoint tick)).drop
        wanted = [] := by
      apply List.drop_eq_nil_of_le
      rw [List.length_map]
      rw [List.length_take] at hlt
      omega
    rw [hchannel]
    rw [hrest] at hsettled
    cases hsettled with
    | sent _ hpending => exact hpending
    | waits hover => exact absurd hover (Nat.not_lt_zero _)
  obtain ⟨w, hgo, hmeasurements, hrests⟩ := hreceiver.settles transport
    (List.length_take_le wanted ticks) unpacked us hnone
  rw [hcount] at hrests
  rw [htaken] at hleads
  have hothers : ∀ (p : Setup.Local i) (ts : List TimeTick) (r : Setup.Local j) (us : List TimeTick)
      (k : Thread), k ≠ i → k ≠ j →
      ((s.put i p ts channel).put j r us channel).process k = s.process k := by
    intro p ts r us k hki hkj
    exact (Network.State.put_process_of_ne hkj).trans (Network.State.put_process_of_ne hki)
  cases hsettled with
  | sent hp' hpending hroom =>
    obtain ⟨packed, _, rfl⟩ := hp'
    have hends : Silent (setup.request i)
        (embed ⟨⟨ticks, capacity, ticks.length⟩, packed, .hasNext⟩) ts
        (embed ⟨⟨ticks, capacity, ticks.length⟩, packed, .finished⟩) ts :=
      (TickSender.ends host packer c ts).map hsender.request
    exact ⟨_, pending, hleads.both hij hends hgo, rfl,
      ⟨_, (Network.State.put_process_of_ne hij).trans Network.State.put_process,
        .finished hroom (hsender.finished _ rfl)⟩,
      ⟨w, Network.State.put_process, hmeasurements, hrests⟩, hothers _ _ _ _⟩
  | waits hover hwaits =>
    rw [← hchannel] at hwaits
    exact ⟨_, pending, hleads.both hij (.refl _ _) hgo, rfl,
      ⟨_, (Network.State.put_process_of_ne hij).trans Network.State.put_process,
        .waits (Nat.not_le.mpr hover) rfl hwaits⟩,
      ⟨w, Network.State.put_process, hmeasurements, hrests⟩, hothers _ _ _ _⟩

/-- A thread after its loop over the chunks: with its ticks to send if it was `ready`, and otherwise
in a call on the connection for the chunks, which has to wait. -/
inductive AfterChunks (setup : Setup) (transport : Connection → Transport) (host : Endianness)
    (packer : Packer) (c : Connection) (ticks : List TimeTick)
    (channel : Connection → List (List UInt8)) (ready : Prop) (i : Thread)
    (q : Setup.Local i) : Prop where
  | sends {embed : TickSender → Setup.Local i} {capacity : Nat} {buffer : Buffer} : ready →
      SendsTicks setup host packer c embed → buffer.Valid →
      q = embed ⟨⟨ticks, capacity, 0⟩, buffer, .hasNext⟩ →
      AfterChunks setup transport host packer c ticks channel ready i q
  | waits : ¬ ready →
      Network.WaitsOn (links transport) .consumerProducer (channel .consumerProducer)
        (setup.request i q) →
      AfterChunks setup transport host packer c ticks channel ready i q

theorem AfterChunks.frame {channel channel' : Connection → List (List UInt8)} {ready : Prop}
    {q : Setup.Local i}
    (h : AfterChunks setup transport host packer c ticks channel ready i q)
    (hsame : channel' .consumerProducer = channel .consumerProducer) :
    AfterChunks setup transport host packer c ticks channel' ready i q := by
  cases h with
  | sends hready hsends hb hq => exact .sends hready hsends hb hq
  | waits hready hwaits => exact .waits hready (by rwa [hsame])

/-- Whether or not the sender comes to its ticks, it and the worker come to rest. -/
theorem leads_after_chunks {ready : Prop} [Decidable ready] (hij : i ≠ j)
    (hsender : AfterChunks setup transport host packer c ticks s.channel ready i (s.process i))
    (hreceiver : WantsTicks setup host' packer' c embed')
    (hformat : ∀ tick, Packer.fieldBytes host packer (.timePoint tick) =
      Packer.fieldBytes host' packer' (.timePoint tick))
    (hfit : ∀ message : List UInt8, message.length = 8 →
      (transport c).weight message ≤ (transport c).capacity)
    {buffer' : Buffer} (hb' : buffer'.Valid)
    (hw : s.process j = embed' ⟨⟨[], wanted, 0⟩, buffer', .isFull⟩)
    (hempty : s.channel c = ([] : List (List UInt8))) :
    ∃ t pending, setup.network.Leads (links transport) s t ∧
      t.channel = Function.update s.channel c pending ∧
      (∃ p, t.process i = p ∧ Rests setup transport {.consumerProducer, c} t.channel
        (ready ∧ (transport c).Holds ((ticks.map fun tick =>
          Packer.fieldBytes host packer (.timePoint tick)).drop wanted)) i p) ∧
      (∃ w : Worker, t.process j = embed' w ∧
        w.measurer.measurements = (if ready then ticks else []).take wanted ∧
        Rests setup transport {c} t.channel (wanted ≤ (if ready then ticks else []).length) j
          (embed' w)) ∧
      (¬ ready → t.process i = s.process i) ∧
      ∀ k, k ≠ i → k ≠ j → t.process k = s.process k := by
  cases hsender with
  | sends hready hsends hb hp =>
    obtain ⟨t, pending, hleads, hchannel, ⟨p, hti, hrests⟩, hworker, hothers⟩ :=
      leads_tick_stream hij hsends hreceiver hformat hfit hb hb' hp hw hempty
    rw [if_pos hready]
    exact ⟨t, pending, hleads, hchannel, ⟨p, hti, hrests.of_iff (and_iff_right hready).symm
      (Set.subset_insert _ _)⟩, hworker, absurd hready, hothers⟩
  | waits hready hwaits =>
    have hle : ([] : List TimeTick).length ≤ wanted := Nat.zero_le wanted
    obtain ⟨w, hgo, hmeasurements, hrests⟩ :=
      hreceiver.settles transport hle buffer' (s.readings j) fun _ => hempty
    have hsame : s.channel = Function.update s.channel c ([] : List (List UInt8)) := by
      rw [← hempty, Function.update_eq_self]
    rw [if_neg hready]
    refine ⟨_, [], Network.leads_silent hgo hw rfl, hsame,
      ⟨_, Network.State.put_process_of_ne hij, .waits (fun h => hready h.1) (.inl rfl) hwaits⟩,
      ⟨w, Network.State.put_process, hmeasurements.trans List.take_nil.symm, hrests⟩,
      fun _ => Network.State.put_process_of_ne hij, ?_⟩
    intro k _ hkj
    exact Network.State.put_process_of_ne hkj

end TickStream

section ChunkStream
variable {setup : Setup} {transport : Connection → Transport} {msgs : List StdString}
variable {counts : Counts} {producerTicks consumerTicks : List TimeTick}
variable {channel : Connection → List (List UInt8)}

theorem Producer.sendsTicks (setup : Setup) (p : Producer) :
    SendsTicks setup setup.producerHost setup.producerMeasurerConnectionPacker .measurerProducer
      (i := .producer) p.withTicks where
  request _ := rfl
  finished _ h := congrArg ProducerStage.ticks h

theorem Consumer.sendsTicks (setup : Setup) (c : Consumer) :
    SendsTicks setup setup.consumerHost setup.consumerMeasurerConnectionPacker .measurerConsumer
      (i := .consumer) c.withTicks where
  request _ := rfl
  finished _ h := congrArg ConsumerStage.ticks h

/-- Where the stream of chunks leaves the Producer. -/
theorem Producer.settles (h : setup.Conveys transport msgs counts producerTicks consumerTicks)
    {rest : List (List UInt8)} {p : Producer} {ts : List TimeTick}
    (hsettled : Network.Settled setup.network (fun c => (transport c).queue) .consumerProducer
      (i := .producer) (ProducerAt msgs counts.producer producerTicks msgs.length) rest p ts
      (channel .consumerProducer)) :
    ∃ p' ts', Silent (setup.request .producer) p ts p' ts' ∧
      AfterChunks setup transport setup.producerHost setup.producerMeasurerConnectionPacker
        .measurerProducer producerTicks channel ((transport .consumerProducer).Holds rest)
        .producer p' := by
  cases hsettled with
  | sent hp _ hroom =>
    obtain ⟨buffer, hb, rfl, rfl⟩ := hp
    rw [h.msgs_count, List.take_of_length_le h.producerTicks_count.le]
    let p : Producer := ⟨⟨msgs, counts.producer.toNat⟩,
      ⟨producerTicks, counts.producer.toNat, 0⟩, buffer, .ticks .toFirst⟩
    refine ⟨_, _, (Producer.ends _ _ _ h.msgs_count.symm _).trans
      ((TickSender.starts _ _ _ _).map (Producer.request_ticks _ _ _ p)), ?_⟩
    exact .sends hroom (p.sendsTicks setup) hb rfl
  | waits hover hwaits => exact ⟨p, ts, .refl _ _, .waits (Nat.not_le.mpr hover) hwaits⟩

/-- Where the stream of chunks leaves the Consumer. -/
theorem Consumer.settles (h : setup.Conveys transport msgs counts producerTicks consumerTicks)
    (hempty : counts.producer.toNat < counts.consumer.toNat → channel .consumerProducer = [])
    {c : Consumer} {us : List TimeTick} (hc : ConsumerAt msgs counts.consumer consumerTicks
      (min counts.producer.toNat counts.consumer.toNat) c us) :
    ∃ (c' : Consumer) (us' : List TimeTick), Silent (setup.request .consumer) c us c' us' ∧
      c'.messages = msgs.take counts.consumer.toNat ∧
      (counts.consumer ≤ counts.producer → ∃ stage, c'.stage = .ticks stage) ∧
      AfterChunks setup transport setup.consumerHost setup.consumerMeasurerConnectionPacker
        .measurerConsumer consumerTicks channel (counts.consumer ≤ counts.producer)
        .consumer c' := by
  obtain ⟨buffer, hb, rfl, rfl⟩ := hc
  rcases Nat.lt_or_ge counts.producer.toNat counts.consumer.toNat with hlt | hge
  · have hmsgs : msgs.take counts.producer.toNat = msgs.take counts.consumer.toNat := by
      rw [List.take_of_length_le h.msgs_count.le,
        List.take_of_length_le (h.msgs_count.trans_le hlt.le)]
    rw [Nat.min_eq_left hlt.le, hmsgs]
    have hroom : (⟨consumerTicks.take counts.producer.toNat, counts.consumer.toNat, 0⟩ :
        Measurer).measurements.length < (⟨consumerTicks.take counts.producer.toNat,
        counts.consumer.toNat, 0⟩ : Measurer).capacity :=
      Nat.lt_of_le_of_lt (List.length_take_le _ _) hlt
    refine ⟨_, _, Consumer.waits _ _ _ _ buffer _ hroom _, rfl,
      fun hle => absurd hle (Nat.not_le.mpr hlt), .waits (Nat.not_le.mpr hlt) ?_⟩
    rw [hempty hlt]
    exact .receive rfl
  · rw [Nat.min_eq_right hge, List.take_of_length_le h.consumerTicks_count.le]
    let c : Consumer := ⟨⟨consumerTicks, counts.consumer.toNat, 0⟩, buffer,
      msgs.take counts.consumer.toNat, .ticks .toFirst⟩
    have hfull : c.measurer.isFull = true := decide_eq_true h.consumerTicks_count
    refine ⟨_, _, (Consumer.ends _ _ _ _ hfull _).trans
      ((TickSender.starts _ _ _ _).map (Consumer.request_ticks _ _ _ _ c)), rfl,
      fun _ => ⟨_, rfl⟩, ?_⟩
    exact .sends hge (c.sendsTicks setup) hb rfl

/-- The Consumer takes no messages any more when it sends its ticks. -/
theorem Consumer.keeps_messages {link : Connection → Link Buffer Failure}
    {s t : Network.State setup.network link} {es : List (Thread × Option TimeTick)}
    {stage : TickStage} (hstage : (consumerOf s).stage = .ticks stage)
    (hrun : Run (setup.network.Steps link) s es t) :
    (consumerOf t).messages = (consumerOf s).messages := by
  let I : Consumer → Prop := fun c =>
    c.messages = (consumerOf s).messages ∧ ∃ stage, c.stage = .ticks stage
  refine (Network.process_invariant (N := setup.network) (i := Thread.consumer) (I := I)
    ⟨rfl, stage, hstage⟩ ?_ hrun).1
  rintro p q ⟨hmessages, stage, hp⟩ hnext
  change (Consumer.request _ _ _ _ p).Next q at hnext
  unfold Consumer.request at hnext
  rw [hp] at hnext
  obtain ⟨t, _, rfl⟩ := Request.next_map hnext
  exact ⟨hmessages, t.stage, rfl⟩

variable {s : Network.State setup.network (links transport)}

/-- The Producer and the Consumer after their loops over the chunks. -/
theorem leads_chunk_stream (h : setup.Conveys transport msgs counts producerTicks consumerTicks)
    {itMsgs : Nat} {buffer buffer' : Buffer} (hb : buffer.Valid) (hb' : buffer'.Valid)
    (hp : s.process .producer =
      (⟨⟨msgs, itMsgs⟩, Measurer.new counts.producer, buffer, .toFirst⟩ : Producer))
    (hc : s.process .consumer = (⟨Measurer.new counts.consumer, buffer', [], .isFull⟩ : Consumer))
    (hts : s.readings .producer = producerTicks) (hus : s.readings .consumer = consumerTicks)
    (hempty : s.channel .consumerProducer = ([] : List (List UInt8))) :
    ∃ t pending, setup.network.Leads (links transport) s t ∧
      t.channel = Function.update s.channel .consumerProducer pending ∧
      AfterChunks setup transport setup.producerHost setup.producerMeasurerConnectionPacker
        .measurerProducer producerTicks t.channel ((transport .consumerProducer).Holds
          ((msgs.map setup.chunkBytes).drop counts.consumer.toNat)) .producer
        (t.process .producer) ∧
      AfterChunks setup transport setup.consumerHost setup.consumerMeasurerConnectionPacker
        .measurerConsumer consumerTicks t.channel
        (counts.consumer ≤ counts.producer) .consumer (t.process .consumer) ∧
      (consumerOf t).messages = msgs.take counts.consumer.toNat ∧
      (counts.consumer ≤ counts.producer →
        ∃ stage, (consumerOf t).stage = .ticks stage) ∧
      ∀ k, k ≠ .producer → k ≠ .consumer → t.process k = s.process k := by
  have hij : Thread.producer ≠ Thread.consumer := nofun
  let first : Producer := ⟨⟨msgs, 0⟩, Measurer.new counts.producer, buffer, .hasNext⟩
  let s₁ : Network.State setup.network (links transport) :=
    s.put .producer first producerTicks s.channel
  have hstart : setup.network.Leads (links transport) s s₁ :=
    Network.leads_silent (N := setup.network) (i := .producer) (q := first)
      (.internal rfl (.refl _ _)) hp hts
  have hproducer : ProducerAt msgs counts.producer producerTicks 0 (s₁.process .producer)
      (s₁.readings .producer) :=
    ⟨buffer, hb, Network.State.put_process, Network.State.put_readings⟩
  have hconsumer : ConsumerAt msgs counts.consumer consumerTicks 0 (s₁.process .consumer)
      (s₁.readings .consumer) :=
    ⟨buffer', hb', (Network.State.put_process_of_ne hij.symm).trans hc,
      (Network.State.put_readings_of_ne hij.symm).trans hus⟩
  have hfits : ∀ message ∈ msgs.map setup.chunkBytes,
      (transport .consumerProducer).weight message ≤ (transport .consumerProducer).capacity := by
    intro message hmem
    obtain ⟨msg, hmsg, rfl⟩ := List.mem_map.mp hmem
    exact h.chunks_fit msg hmsg
  obtain ⟨p, ts, c, us, pending, hstream, hc', hsettled⟩ :=
    Network.leads_conversation (N := setup.network)
      (i := .producer) (j := .consumer) (c := .consumerProducer)
      (A := ProducerAt msgs counts.producer producerTicks)
      (B := ConsumerAt msgs counts.consumer consumerTicks) hij
      (fun k message hget {_ _} hA => chunk_gives h hget hA)
      (fun k message hk hget {_ _} hB => chunk_takes h hk hget hB) hfits hproducer hconsumer hempty
  let channel : Connection → List (List UInt8) :=
    Function.update s.channel .consumerProducer pending
  have hchannel : channel .consumerProducer = pending := Function.update_self _ _ _
  have hnone : counts.producer.toNat < counts.consumer.toNat →
      channel .consumerProducer = [] := by
    intro hlt
    have hrest : (msgs.map setup.chunkBytes).drop counts.consumer.toNat = [] := by
      apply List.drop_eq_nil_of_le
      rw [List.length_map, h.msgs_count]
      exact hlt.le
    rw [hchannel]
    rw [hrest] at hsettled
    cases hsettled with
    | sent _ hpending => exact hpending
    | waits hover => exact absurd hover (Nat.not_lt_zero _)
  rw [List.length_map] at hc' hsettled
  rw [h.msgs_count] at hc'
  rw [← hchannel] at hsettled
  obtain ⟨p', ts', hsent, hafter⟩ := Producer.settles h hsettled
  obtain ⟨c', us', hreceived, hmessages, hstage, hafter'⟩ := Consumer.settles h hnone hc'
  refine ⟨_, pending, hstart.trans (hstream.both hij hsent hreceived), rfl, ?_, ?_, hmessages,
    hstage, ?_⟩
  · exact hafter
  · exact hafter'
  · intro k hkp hkc
    exact ((Network.State.put_process_of_ne hkc).trans
      (Network.State.put_process_of_ne hkp)).trans (Network.State.put_process_of_ne hkp)

end ChunkStream

/-- The three counts and the room for what is left over decide what every thread comes to. -/
structure Outcome (counts : Counts) (chunksFit producerTicksFit consumerTicksFit : Prop)
    [Decidable chunksFit] {setup : Setup} {link : Connection → Link Buffer Failure}
    (msgs : List StdString) (producerTicks consumerTicks : List TimeTick)
    (s : Network.State setup.network link) : Prop where
  messages : (consumerOf s).messages = msgs.take counts.consumer.toNat
  producerMeasurements : (producerWorkerOf s).measurer.measurements =
    (if chunksFit then producerTicks else []).take counts.analyzer.toNat
  consumerMeasurements : (consumerWorkerOf s).measurer.measurements =
    (if counts.consumer ≤ counts.producer then consumerTicks else []).take counts.analyzer.toNat
  producer : Finished .producer (s.process .producer) ↔ chunksFit ∧ producerTicksFit
  consumer : Finished .consumer (s.process .consumer) ↔
    counts.consumer ≤ counts.producer ∧ consumerTicksFit
  producerWorker : Finished .producerWorker (s.process .producerWorker) ↔
    counts.analyzer.toNat ≤ if chunksFit then counts.producer.toNat else 0
  consumerWorker : Finished .consumerWorker (s.process .consumerWorker) ↔
    counts.analyzer.toNat ≤
      if counts.consumer ≤ counts.producer then counts.consumer.toNat else 0
  not_failed : ∀ i, ¬ ThreadFailed i (s.process i)

namespace Outcome
variable {counts : Counts} {chunksFit producerTicksFit consumerTicksFit : Prop}
variable [Decidable chunksFit] {setup : Setup} {link link' : Connection → Link Buffer Failure}
variable {msgs : List StdString} {producerTicks consumerTicks : List TimeTick}
variable {s u : Network.State setup.network link} {t : Network.State setup.network link'}

theorem of_process (h : Outcome counts chunksFit producerTicksFit consumerTicksFit msgs
    producerTicks consumerTicks s) (hsame : t.process = s.process) :
    Outcome counts chunksFit producerTicksFit consumerTicksFit msgs producerTicks consumerTicks
      t := by
  obtain ⟨process, readings, channel⟩ := t
  cases hsame
  exact ⟨h.messages, h.producerMeasurements, h.consumerMeasurements, h.producer, h.consumer,
    h.producerWorker, h.consumerWorker, h.not_failed⟩

/-- All threads finish if nobody counts on more than it gets and all that is left over fits. -/
theorem all_finished_iff (h : Outcome counts chunksFit producerTicksFit consumerTicksFit msgs
    producerTicks consumerTicks s) : (∀ i, Finished i (s.process i)) ↔
      counts.analyzer ≤ counts.consumer ∧ counts.consumer ≤ counts.producer ∧ chunksFit ∧
        producerTicksFit ∧ consumerTicksFit := by
  constructor
  · intro hall
    obtain ⟨hchunks, hproducer⟩ := h.producer.mp (hall _)
    obtain ⟨hle, hconsumer⟩ := h.consumer.mp (hall _)
    have hworker := h.consumerWorker.mp (hall _)
    rw [if_pos hle] at hworker
    exact ⟨hworker, hle, hchunks, hproducer, hconsumer⟩
  · rintro ⟨hanalyzer, hle, hchunks, hproducer, hconsumer⟩ i
    cases i with
    | producer => exact h.producer.mpr ⟨hchunks, hproducer⟩
    | consumer => exact h.consumer.mpr ⟨hle, hconsumer⟩
    | consumerWorker =>
      apply h.consumerWorker.mpr
      rw [if_pos hle]
      exact hanalyzer
    | producerWorker =>
      apply h.producerWorker.mpr
      rw [if_pos hchunks]
      exact hanalyzer.trans hle

/-- On the way to it no thread fails. -/
theorem never_failed (h : Outcome counts chunksFit producerTicksFit consumerTicksFit msgs
    producerTicks consumerTicks s) {es : List (Thread × Option TimeTick)}
    (hrun : Run (setup.network.Steps link) u es s) (i : Thread) :
    ¬ ThreadFailed i (u.process i) := by
  intro hfailed
  have hsame := Network.halted hfailed.halts hrun
  exact h.not_failed i (hsame.symm ▸ hfailed)

theorem of_iff {chunksFit' producerTicksFit' consumerTicksFit' : Prop} [Decidable chunksFit']
    (h : Outcome counts chunksFit producerTicksFit consumerTicksFit msgs producerTicks
      consumerTicks s) (hchunks : chunksFit ↔ chunksFit')
    (hproducer : producerTicksFit ↔ producerTicksFit')
    (hconsumer : consumerTicksFit ↔ consumerTicksFit') :
    Outcome counts chunksFit' producerTicksFit' consumerTicksFit' msgs producerTicks consumerTicks
      s := by
  obtain rfl := propext hchunks
  obtain rfl := propext hproducer
  obtain rfl := propext hconsumer
  convert h

end Outcome

section Complete
variable {setup : Setup} {transport : Connection → Transport} {generator : SimpleRoundGenerator}
variable {counts : Counts} {producerTicks consumerTicks : List TimeTick}
variable {buffers : Thread → Buffer} {readings : Thread → List TimeTick}

/-- One schedule: all chunks that go over, then the Producer's ticks, then the Consumer's. -/
theorem leads_outcome
    (h : setup.Conveys transport generator.msgs counts producerTicks consumerTicks)
    (hbuffers : ∀ i, (buffers i).Valid) (hproducer : readings .producer = producerTicks)
    (hconsumer : readings .consumer = consumerTicks) :
    ∃ t, setup.network.Leads (links transport)
        (setup.start (links transport) generator counts buffers readings fun _ => []) t ∧
      Ended (setup.network.Steps (links transport)) t ∧
      Outcome counts
        ((transport .consumerProducer).Holds
          ((generator.msgs.map setup.chunkBytes).drop counts.consumer.toNat))
        ((transport .measurerProducer).Holds
          ((producerTicks.map setup.producerTickBytes).drop counts.analyzer.toNat))
        ((transport .measurerConsumer).Holds
          ((consumerTicks.map setup.consumerTickBytes).drop counts.analyzer.toNat))
        generator.msgs producerTicks consumerTicks t := by
  let s := setup.start (links transport) generator counts buffers readings fun _ => []
  obtain ⟨t₁, pending₁, hlead₁, hchannel₁, hafter, hafter', hmessages, hstage, hothers₁⟩ :=
    leads_chunk_stream (s := s) h (hbuffers .producer) (hbuffers .consumer) rfl rfl hproducer
      hconsumer rfl
  have hwants : WantsTicks setup setup.analyzerHost
      setup.analyzerPackers.producerMeasurerConnectionPacker .measurerProducer
      (j := .producerWorker) (fun w : Worker => w) :=
    ⟨fun w => (Request.map_id _).symm, fun _ hfinished => hfinished⟩
  have hwants' : WantsTicks setup setup.analyzerHost
      setup.analyzerPackers.consumerMeasurerConnectionPacker .measurerConsumer
      (j := .consumerWorker) (fun w : Worker => w) :=
    ⟨fun w => (Request.map_id _).symm, fun _ hfinished => hfinished⟩
  have hworker₁ := hothers₁ .producerWorker nofun nofun
  obtain ⟨t₂, pending₂, hlead₂, hchannel₂, ⟨p, hp, hprests⟩, ⟨w, hw, hwticks, hwrests⟩, _,
    hothers₂⟩ := leads_after_chunks (i := .producer) (j := .producerWorker) nofun hafter hwants
      (fun tick => fieldBytes_wireOrder h.agrees.producerTicks _) (h.ticks_fit _ nofun)
      (hbuffers .producerWorker) hworker₁ (congrFun hchannel₁ _)
  have hsame₂ : ∀ c, c ≠ .measurerProducer → t₂.channel c = t₁.channel c := by
    intro c hne
    rw [hchannel₂]
    exact Function.update_of_ne hne _ _
  have hafter₂ : AfterChunks setup transport setup.consumerHost
      setup.consumerMeasurerConnectionPacker .measurerConsumer consumerTicks t₂.channel
      (counts.consumer ≤ counts.producer) .consumer (t₂.process .consumer) := by
    rw [hothers₂ .consumer nofun nofun]
    exact hafter'.frame (hsame₂ _ nofun)
  have hworker₂ := (hothers₂ .consumerWorker nofun nofun).trans
    (hothers₁ .consumerWorker nofun nofun)
  have hempty₂ : t₂.channel .measurerConsumer = ([] : List (List UInt8)) := by
    rw [hchannel₂, hchannel₁]
    rfl
  obtain ⟨t₃, pending₃, hlead₃, hchannel₃, ⟨c, hc, hcrests⟩, ⟨w', hw', hwticks', hwrests'⟩, hstays,
    hothers₃⟩ := leads_after_chunks (i := .consumer) (j := .consumerWorker) nofun hafter₂ hwants'
      (fun tick => fieldBytes_wireOrder h.agrees.consumerTicks _) (h.ticks_fit _ nofun)
      (hbuffers .consumerWorker) hworker₂ hempty₂
  have hsame₃ : ∀ c, c ≠ .measurerConsumer → t₃.channel c = t₂.channel c := by
    intro c hne
    rw [hchannel₃]
    exact Function.update_of_ne hne _ _
  have hkept : ∀ c ∈ ({.consumerProducer, .measurerProducer} : Set Connection),
      t₃.channel c = t₂.channel c := by
    rintro _ (rfl | rfl)
    · exact hsame₃ _ nofun
    · exact hsame₃ _ nofun
  have hprests₃ := hprests.frame hkept
  have hwrests₃ := hwrests.frame fun c hmem => hkept c (Set.mem_insert_of_mem _ hmem)
  have hp₃ := (hothers₃ .producer nofun nofun).trans hp
  have hw₃ := (hothers₃ .producerWorker nofun nofun).trans hw
  refine ⟨t₃, (hlead₁.trans hlead₂).trans hlead₃, Network.ended_of_idle ?_, ?_⟩
  · intro i
    cases i with
    | producer => exact hp₃ ▸ hprests₃.idle
    | consumer => exact hc ▸ hcrests.idle
    | consumerWorker => exact hw' ▸ hwrests'.idle
    | producerWorker => exact hw₃ ▸ hwrests₃.idle
  · have hcount : ∀ (ready : Prop) [Decidable ready] (ticks : List TimeTick) (n : Nat),
        ticks.length = n → (if ready then ticks else []).length = if ready then n else 0 := by
      rintro ready _ ticks n rfl
      exact apply_ite List.length ready ticks []
    refine
      { messages := ?_
        producerMeasurements :=
          (congrArg (fun w : Worker => w.measurer.measurements) hw₃).trans hwticks
        consumerMeasurements :=
          (congrArg (fun w : Worker => w.measurer.measurements) hw').trans hwticks'
        producer := hp₃ ▸ hprests₃.finished_iff
        consumer := hc ▸ hcrests.finished_iff
        producerWorker := ?_
        consumerWorker := ?_
        not_failed := ?_ }
    · by_cases hle : counts.consumer ≤ counts.producer
      · obtain ⟨stage, hticks⟩ := hstage hle
        obtain ⟨es, hrun⟩ := hlead₂.trans hlead₃
        exact (Consumer.keeps_messages hticks hrun).trans hmessages
      · have hsame := (hstays hle).trans (hothers₂ .consumer nofun nofun)
        exact (congrArg Consumer.messages hsame).trans hmessages
    · rw [hw₃, ← hcount _ producerTicks _ h.producerTicks_count]
      exact hwrests₃.finished_iff
    · rw [hw', ← hcount _ consumerTicks _ h.consumerTicks_count]
      exact hwrests'.finished_iff
    · intro i
      cases i with
      | producer => exact hp₃ ▸ hprests₃.not_failed
      | consumer => exact hc ▸ hcrests.not_failed
      | consumerWorker => exact hw' ▸ hwrests'.not_failed
      | producerWorker => exact hw₃ ▸ hwrests₃.not_failed

end Complete

/-! The rings of shared memory, which keep what is in them whatever becomes of the ends. -/

/-- All three connections over shared memory, on one machine. -/
def sharedMemorySetup (host : Endianness) (alloc : UInt64 → Bool) : Setup where
  producerHost := host
  consumerHost := host
  analyzerHost := host
  producer := ⟨.kSharedMemory, .kSharedMemory⟩
  consumer := ⟨.kSharedMemory, .kSharedMemory⟩
  analyzer := ⟨.kSharedMemory, .kSharedMemory⟩
  alloc := alloc

/-- The messages of this size that a receiver does not ask for fit in the ring. -/
def RestFits (ring : SPSCRingBuffer) (sent wanted : UInt64) (size : Nat) : Prop :=
  (sent.toNat - wanted.toNat) * recordSpace size ≤ ring.capacity.toNat

instance (ring : SPSCRingBuffer) (sent wanted : UInt64) (size : Nat) :
    Decidable (RestFits ring sent wanted size) := inferInstanceAs (Decidable (_ ≤ _))

theorem restFits_iff {ring : SPSCRingBuffer} {sent wanted : UInt64} {size : Nat}
    {messages : List (List UInt8)} (hcount : messages.length = sent.toNat)
    (hsize : ∀ message ∈ messages, message.length = size) :
    (ringTransport ring.capacity).Holds (messages.drop wanted.toNat) ↔
      RestFits ring sent wanted size := by
  have hweights : (messages.drop wanted.toNat).map (ringTransport ring.capacity).weight =
      List.replicate (sent.toNat - wanted.toNat) (recordSpace size) := by
    rw [← hcount, ← List.length_drop, ← List.map_const']
    apply List.map_congr_left
    intro message hmem
    exact congrArg recordSpace (hsize message (List.mem_of_mem_drop hmem))
  unfold Transport.Holds Fifo.load RestFits
  rw [hweights, List.sum_replicate_nat]
  exact Iff.rfl

/-- Over shared memory the three processes may be told any numbers of chunks that their vectors
can be reserved for. There is one end, to which every schedule comes by the same steps in some
order, and no thread fails. All threads finish there if and only if no process counts on more
than the one before it, and each ring has room for what is left in it; the others wait for
ever. -/
theorem counts_over_shared_memory (host : Endianness) (alloc : UInt64 → Bool)
    (ring : Connection → SPSCRingBuffer) (chunksSize : UInt64) (counts : Counts)
    (hreserve : counts.Reservable) (buffers : Thread → Buffer) (readings : Thread → List TimeTick)
    (hbuffers : ∀ i, (buffers i).Valid)
    (hproducer : (readings .producer).length = counts.producer.toNat)
    (hconsumer : (readings .consumer).length = counts.consumer.toNat)
    (halloc : alloc chunksSize = true) (hsize : 8 + chunksSize.toNat ≤ 10000)
    (hempty : ∀ c, Holding host (ring c).capacity (ring c) [])
    (hroom : ∀ c, 4 + messageSize chunksSize.toNat c ≤ (ring c).capacity.toNat) :
    ∃ generator,
      (SimpleRoundGenerator.new chunksSize counts.producer).run () = .ok generator () ∧
      (∀ count ∈ [counts.producer, counts.consumer, counts.analyzer],
        (Measurer.construct count).run () = .ok (Measurer.new count) ()) ∧
      ∃ es, ∃ t : Network.State (sharedMemorySetup host alloc).network
          (links fun c => ringTransport (ring c).capacity),
        Outcome counts
          (RestFits (ring .consumerProducer) counts.producer counts.consumer
            (8 + chunksSize.toNat))
          (RestFits (ring .measurerProducer) counts.producer counts.analyzer 8)
          (RestFits (ring .measurerConsumer) counts.consumer counts.analyzer 8)
          generator.msgs (readings .producer) (readings .consumer) t ∧
        ((∀ i, Finished i (t.process i)) ↔
          counts.analyzer ≤ counts.consumer ∧ counts.consumer ≤ counts.producer ∧
          RestFits (ring .consumerProducer) counts.producer counts.consumer
            (8 + chunksSize.toNat) ∧
          RestFits (ring .measurerProducer) counts.producer counts.analyzer 8 ∧
          RestFits (ring .measurerConsumer) counts.consumer counts.analyzer 8) ∧
        ∀ fs u, Run ((sharedMemorySetup host alloc).network.Steps fun _ => sharedMemory host)
            ((sharedMemorySetup host alloc).start (fun _ => sharedMemory host) generator
              counts buffers readings ring) fs u →
          (∀ i, ¬ ThreadFailed i (u.process i)) ∧
          ∃ gs u', Run ((sharedMemorySetup host alloc).network.Steps fun _ => sharedMemory host) u
              gs u' ∧ (fs ++ gs).Perm es ∧
            Ended ((sharedMemorySetup host alloc).network.Steps fun _ => sharedMemory host) u' ∧
            Network.Related (fun c => ringRefinement host (ring c).capacity) u' t := by
  obtain ⟨generator, hnew, hcount, hmsgs⟩ :=
    SimpleRoundGenerator.new_run (lt_string_of_fits hsize) hreserve.producer ()
  let setup := sharedMemorySetup host alloc
  have hrings : ∀ c, (Medium.ring host (ring c)).Empty := hempty
  have hconveys : setup.Conveys (fun c => ringTransport (ring c).capacity) generator.msgs counts
      (readings .producer) (readings .consumer) :=
    conveys_media ⟨rfl, rfl, rfl⟩ hnew halloc hsize hrings hroom hproducer hconsumer
  obtain ⟨t, ⟨es, hrun⟩, hend, houtcome⟩ := leads_outcome hconveys hbuffers rfl rfl
  have hchunks : ∀ message ∈ generator.msgs.map setup.chunkBytes,
      message.length = 8 + chunksSize.toNat := by
    intro message hmem
    obtain ⟨msg, hmsg, rfl⟩ := List.mem_map.mp hmem
    unfold Setup.chunkBytes
    rw [Packer.fieldBytes_length]
    exact congrArg (8 + ·) (hmsgs msg hmsg)
  have hticks : ∀ (packer : Packer) (ticks : List TimeTick), ∀ message ∈ ticks.map fun tick =>
      Packer.fieldBytes host packer (.timePoint tick), message.length = 8 := by
    intro packer ticks message hmem
    obtain ⟨tick, _, rfl⟩ := List.mem_map.mp hmem
    rw [Packer.fieldBytes_length]
    rfl
  have hrests := houtcome.of_iff
    (restFits_iff ((List.length_map _).trans hcount) hchunks)
    (restFits_iff ((List.length_map _).trans hproducer) (hticks _ _))
    (restFits_iff ((List.length_map _).trans hconsumer) (hticks _ _))
  let r : ∀ c : Connection, Refinement (sharedMemory host)
      (ringTransport (ring c).capacity).queue.channel.toLink :=
    fun c => ringRefinement host (ring c).capacity
  have hstart : Network.Related r
      (setup.start (fun _ => sharedMemory host) generator counts buffers readings ring)
      (setup.start (links fun c => ringTransport (ring c).capacity) generator counts
        buffers readings fun _ => []) := ⟨rfl, rfl, hempty⟩
  refine ⟨generator, hnew, hreserve.construct_run, es, t, hrests, hrests.all_finished_iff, ?_⟩
  intro fs u hfs
  obtain ⟨gs, u', hgs, hperm, hrel⟩ :=
    hstart.completes (fun _ _ _ _ _ _ _ _ => trivial) hend hrun hfs
  exact ⟨(hrests.of_process hrel.process).never_failed hgs, gs, u', hgs, hperm,
    hrel.symm.ended (fun _ _ _ _ _ => trivial) hend, hrel⟩

/-- The Consumer takes one of two chunks, and the Analyzer waits for its second tick. -/
def unevenCounts : Counts := ⟨2, 1, 2⟩

def unevenReadings : Thread → List TimeTick
  | .producer => [1, 5]
  | .consumer => [3]
  | _ => []

theorem counts_over_shared_memory_sample :
    ∃ t : Network.State (sharedMemorySetup .kLittle fun _ => true).network
        fun _ => sharedMemory .kLittle,
      Ended ((sharedMemorySetup .kLittle fun _ => true).network.Steps
        fun _ => sharedMemory .kLittle) t ∧
      Finished .consumer (t.process .consumer) ∧
      ¬ Finished .consumerWorker (t.process .consumerWorker) := by
  have hring : ∀ _ : Connection, Holding .kLittle 64 (SPSCRingBuffer.initial 64 fun _ => 0) [] :=
    fun _ => ⟨rfl, 0, Represents.of_initial .kLittle rfl _⟩
  have hroom : ∀ c, 4 + messageSize (20 : UInt64).toNat c ≤ (64 : UInt32).toNat := by
    intro c
    cases c <;> decide
  obtain ⟨_, _, _, _, t, houtcome, _, hall⟩ := counts_over_shared_memory .kLittle (fun _ => true)
    (fun _ => SPSCRingBuffer.initial 64 fun _ => 0) 20 unevenCounts
    ⟨by decide, by decide, by decide⟩
    (fun _ => Buffer.new (bytesAt []) 4096) unevenReadings (fun _ => Buffer.valid_new_page _) rfl
    rfl rfl (by decide) hring hroom
  obtain ⟨_, _, u', _, _, hend, hrel⟩ := hall [] _ .start
  have hends := houtcome.of_process hrel.process
  refine ⟨u', hend, hends.consumer.mpr (by decide), fun hfinished => ?_⟩
  exact absurd (hends.consumerWorker.mp hfinished) (by decide)

end IpcChecker.Actors
