import IpcChecker.ActorLoops
import IpcChecker.ActorTrace
import IpcChecker.Shared.Streams

/-!
# A whole measurement

The four threads over any connections that keep messages whole and in order. One
schedule sends every chunk and every tick through empty connections; since the
threads form a network, all other schedules end where it does.
-/

namespace IpcChecker.Actors
open Shared
set_option autoImplicit false

/-- Two ends with the same byte order on the wire use the same format. -/
theorem fieldBytes_wireOrder {host host' : Endianness} {type type' : ConnectionType}
    (h : wireOrder host type = wireOrder host' type') (field : Field) :
    Packer.fieldBytes host (createPacker host type) field =
      Packer.fieldBytes host' (createPacker host' type') field := by
  cases field <;> simp only [Packer.fieldBytes, scalarBytes_createPacker, h]

namespace Setup
variable (setup : Setup)

/-- Both ends of each connection use the same byte order. -/
structure Agrees : Prop where
  data : wireOrder setup.producerHost setup.producer.connectionType =
    wireOrder setup.consumerHost setup.consumer.connectionType
  producerTicks : wireOrder setup.producerHost
      setup.producer.measurerProducerConnectionPackerParams =
    wireOrder setup.analyzerHost setup.analyzer.measurerConsumerConnectionPackerParams
  consumerTicks : wireOrder setup.consumerHost
      setup.consumer.measurerConsumerConnectionPackerParams =
    wireOrder setup.analyzerHost setup.analyzer.measurerProducerConnectionPackerParams

/-- The packed form of a chunk. -/
def chunkBytes (msg : StdString) : List UInt8 :=
  Packer.fieldBytes setup.producerHost setup.consumerConnectionPacker (.string msg)

/-- Chunks and ticks that the connections can carry one by one; the Producer and the Consumer
have as many readings of the clock as they count chunks. -/
structure Conveys (transport : Connection → Transport) (msgs : List StdString) (counts : Counts)
    (producerTicks consumerTicks : List TimeTick) : Prop where
  agrees : setup.Agrees
  msgs_count : msgs.length = counts.producer.toNat
  producerTicks_count : producerTicks.length = counts.producer.toNat
  consumerTicks_count : consumerTicks.length = counts.consumer.toNat
  sizes : ∀ msg ∈ msgs, 8 + msg.bytes.length ≤ 10000
  alloc : ∀ msg ∈ msgs, setup.alloc msg.size = true
  chunks_fit : ∀ msg ∈ msgs, (transport .consumerProducer).weight (setup.chunkBytes msg) ≤
    (transport .consumerProducer).capacity
  ticks_fit : ∀ connection, connection ≠ .consumerProducer → ∀ message : List UInt8,
    message.length = 8 → (transport connection).weight message ≤ (transport connection).capacity

/-- The same, for processes that are all told one count. -/
abbrev Carries (transport : Connection → Transport) (msgs : List StdString)
    (chunksTotalCount : UInt64) (producerTicks consumerTicks : List TimeTick) : Prop :=
  setup.Conveys transport msgs (.same chunksTotalCount) producerTicks consumerTicks

end Setup

/-! The three streams. -/

/-- The element that a stream has come to. -/
theorem exists_at {α : Type} {l : List α} {k : Nat} (h : k < l.length) :
    ∃ a ∈ l, l[k]? = some a ∧ l.drop k = a :: l.drop (k + 1) ∧ l.take (k + 1) = l.take k ++ [a] :=
  ⟨l[k], List.getElem_mem h, List.getElem?_eq_getElem h, List.drop_eq_getElem_cons h,
    List.take_succ_eq_append_getElem h⟩

section Streams
variable {setup : Setup} {transport : Connection → Transport} {msgs : List StdString}
variable {counts : Counts} {chunksTotalCount : UInt64} {producerTicks consumerTicks : List TimeTick}

/-- The Producer when it has sent `k` chunks. -/
def ProducerAt (msgs : List StdString) (chunksTotalCount : UInt64) (producerTicks : List TimeTick)
    (k : Nat) (p : Producer) (ts : List TimeTick) : Prop :=
  ∃ buffer : Buffer, buffer.Valid ∧ p = ⟨⟨msgs, k⟩,
    ⟨producerTicks.take k, chunksTotalCount.toNat, 0⟩, buffer, .hasNext⟩ ∧ ts = producerTicks.drop k

/-- The Consumer when it has received `k` chunks. -/
def ConsumerAt (msgs : List StdString) (chunksTotalCount : UInt64) (consumerTicks : List TimeTick)
    (k : Nat) (c : Consumer) (us : List TimeTick) : Prop :=
  ∃ buffer : Buffer, buffer.Valid ∧ c = ⟨⟨consumerTicks.take k, chunksTotalCount.toNat, 0⟩,
    buffer, msgs.take k, .isFull⟩ ∧ us = consumerTicks.drop k

theorem chunk_gives (h : setup.Conveys transport msgs counts producerTicks consumerTicks)
    {k : Nat} {message : List UInt8} (hget : (msgs.map setup.chunkBytes)[k]? = some message)
    {p : Producer} {ts : List TimeTick}
    (hp : ProducerAt msgs counts.producer producerTicks k p ts) :
    ∃ p' ts', Network.Gives setup.network (fun c => (transport c).queue) .consumerProducer
        (i := .producer) p ts message p' ts' ∧
      ProducerAt msgs counts.producer producerTicks (k + 1) p' ts' := by
  obtain ⟨buffer, hb, rfl, rfl⟩ := hp
  rw [List.getElem?_map] at hget
  obtain ⟨msg, hmsg, rfl⟩ := Option.map_eq_some_iff.mp hget
  have hmem : msg ∈ msgs := List.mem_of_getElem? hmsg
  have hk : k < counts.producer.toNat :=
    Nat.lt_of_lt_of_le (List.getElem?_eq_some_iff.mp hmsg).1 h.msgs_count.le
  obtain ⟨now, _, _, hreading, hticks⟩ := exists_at (h.producerTicks_count ▸ hk)
  have hroom : (⟨producerTicks.take k, counts.producer.toNat, 0⟩ : Measurer).measurements.length <
      (⟨producerTicks.take k, counts.producer.toNat, 0⟩ : Measurer).capacity :=
    Nat.lt_of_le_of_lt (List.length_take_le k producerTicks) hk
  obtain ⟨packed, hpacked, hcontents, hround⟩ := Producer.round setup.producerHost
    setup.consumerConnectionPacker setup.producerMeasurerConnectionPacker hmsg (h.sizes msg hmem)
    hroom hb now (producerTicks.drop (k + 1))
  have hgives : Network.Gives setup.network (fun c => (transport c).queue) .consumerProducer
      (i := .producer) _ _ packed.contents _ _ := .intro hround rfl (.refl _ _)
  rw [hcontents] at hgives
  rw [hreading]
  exact ⟨_, _, hgives, packed, hpacked, by rw [hticks], rfl⟩

theorem chunk_takes (h : setup.Conveys transport msgs counts producerTicks consumerTicks)
    {k : Nat} (hk : k < counts.consumer.toNat) {message : List UInt8}
    (hget : (msgs.map setup.chunkBytes)[k]? = some message) {c : Consumer} {us : List TimeTick}
    (hc : ConsumerAt msgs counts.consumer consumerTicks k c us) :
    ∃ c' us', Network.Takes setup.network (fun c => (transport c).queue) .consumerProducer
        (j := .consumer) c us message c' us' ∧
      ConsumerAt msgs counts.consumer consumerTicks (k + 1) c' us' := by
  obtain ⟨buffer, hb, rfl, rfl⟩ := hc
  rw [List.getElem?_map] at hget
  obtain ⟨msg, hmsg, rfl⟩ := Option.map_eq_some_iff.mp hget
  have hmem : msg ∈ msgs := List.mem_of_getElem? hmsg
  have hmsgs : msgs.take (k + 1) = msgs.take k ++ [msg] := by
    rw [List.take_add_one, hmsg]
    rfl
  obtain ⟨now, _, _, hreading, hticks⟩ := exists_at (h.consumerTicks_count ▸ hk)
  have hroom : (⟨consumerTicks.take k, counts.consumer.toNat, 0⟩ : Measurer).measurements.length <
      (⟨consumerTicks.take k, counts.consumer.toNat, 0⟩ : Measurer).capacity :=
    Nat.lt_of_le_of_lt (List.length_take_le k consumerTicks) hk
  have hwaits := Consumer.waits setup.consumerHost setup.alloc setup.producerConnectionPacker
    setup.consumerMeasurerConnectionPacker buffer (msgs.take k) hroom
    (now :: consumerTicks.drop (k + 1))
  obtain ⟨unpacked, hunpacked, htakes⟩ := Consumer.takes setup.consumerHost setup.alloc
    setup.producerConnectionPacker setup.consumerMeasurerConnectionPacker
    (msgs.take k) (h.alloc msg hmem) (h.sizes msg hmem) hroom hb now (consumerTicks.drop (k + 1))
  have hformat : setup.chunkBytes msg =
      Packer.fieldBytes setup.consumerHost setup.producerConnectionPacker (.string msg) :=
    fieldBytes_wireOrder h.agrees.data _
  have hlength : (setup.chunkBytes msg).length ≤ buffer.reset.capacity.toNat := by
    unfold Setup.chunkBytes
    rw [Packer.fieldBytes_length]
    exact h.sizes msg hmem
  rw [← hformat] at htakes
  rw [hreading]
  refine ⟨_, _, .intro hwaits rfl ((transport .consumerProducer).deliver_whole _ _ hlength) htakes,
    unpacked, hunpacked, by rw [hticks, hmsgs], rfl⟩

theorem chunk_passes (h : setup.Carries transport msgs chunksTotalCount producerTicks consumerTicks)
    {k : Nat} (hk : k < chunksTotalCount.toNat) {p : Producer} {ts : List TimeTick} {c : Consumer}
    {us : List TimeTick} (hp : ProducerAt msgs chunksTotalCount producerTicks k p ts)
    (hc : ConsumerAt msgs chunksTotalCount consumerTicks k c us) :
    ∃ p' ts' c' us', Network.Passes setup.network (fun c => (transport c).queue)
        .consumerProducer (i := .producer) (j := .consumer) p ts c us p' ts' c' us' ∧
      ProducerAt msgs chunksTotalCount producerTicks (k + 1) p' ts' ∧
      ConsumerAt msgs chunksTotalCount consumerTicks (k + 1) c' us' := by
  obtain ⟨msg, hmem, hget, _, _⟩ := exists_at (h.msgs_count ▸ hk)
  have hmessage : (msgs.map setup.chunkBytes)[k]? = some (setup.chunkBytes msg) := by
    rw [List.getElem?_map, hget]
    rfl
  obtain ⟨p', ts', hgive, hp'⟩ := chunk_gives h hmessage hp
  obtain ⟨c', us', htake, hc'⟩ := chunk_takes h hk hmessage hc
  exact ⟨p', ts', c', us', hgive.passes htake (h.chunks_fit msg hmem), hp', hc'⟩

end Streams

section Ticks
variable {setup : Setup} {transport : Connection → Transport} {i j : Thread} {c : Connection}
variable {host host' : Endianness} {packer packer' : Packer} {embed : TickSender → Setup.Local i}
variable {embed' : Worker → Setup.Local j} {ticks : List TimeTick} {capacity wanted : Nat}

/-- A sender of ticks when it has sent `k` of them. -/
def TicksSentAt (embed : TickSender → Setup.Local i) (ticks : List TimeTick) (capacity k : Nat)
    (p : Setup.Local i) (_ : List TimeTick) : Prop :=
  ∃ buffer : Buffer, buffer.Valid ∧ p = embed ⟨⟨ticks, capacity, k⟩, buffer, .hasNext⟩

/-- A worker of the Analyzer when it has received `k` ticks. -/
def TicksReceivedAt (embed' : Worker → Setup.Local j) (ticks : List TimeTick) (k : Nat)
    (w : Setup.Local j) (_ : List TimeTick) : Prop :=
  ∃ buffer : Buffer, buffer.Valid ∧ w = embed' ⟨⟨ticks.take k, ticks.length, 0⟩, buffer, .isFull⟩

/-- A worker of the Analyzer that counts on `wanted` ticks when it has received `k` of them. -/
def TicksWantedAt (embed' : Worker → Setup.Local j) (ticks : List TimeTick) (wanted k : Nat)
    (w : Setup.Local j) (_ : List TimeTick) : Prop :=
  ∃ buffer : Buffer, buffer.Valid ∧ w = embed' ⟨⟨ticks.take k, wanted, 0⟩, buffer, .isFull⟩

theorem tick_gives
    (hsender : ∀ t, setup.request i (embed t) = (TickSender.request host packer c t).map embed)
    {k : Nat} {message : List UInt8} (hget : (ticks.map fun tick =>
      Packer.fieldBytes host packer (.timePoint tick))[k]? = some message)
    {p : Setup.Local i} {ts : List TimeTick} (hp : TicksSentAt embed ticks capacity k p ts) :
    ∃ p' ts', Network.Gives setup.network (fun c => (transport c).queue) c (i := i)
        p ts message p' ts' ∧
      TicksSentAt embed ticks capacity (k + 1) p' ts' := by
  obtain ⟨buffer, hb, rfl⟩ := hp
  rw [List.getElem?_map] at hget
  obtain ⟨tick, htick, rfl⟩ := Option.map_eq_some_iff.mp hget
  obtain ⟨packed, hpacked, hcontents, hround⟩ := TickSender.round host packer c htick hb ts
  have hgives : Network.Gives setup.network (fun c => (transport c).queue) c (i := i) _ _
      packed.contents _ _ := .intro (hround.map hsender) (hsender _) (.refl _ _)
  rw [hcontents] at hgives
  exact ⟨_, _, hgives, packed, hpacked, rfl⟩

theorem tick_takes
    (hreceiver : ∀ w, setup.request j (embed' w) = (Worker.request host' packer' c w).map embed')
    (hformat : ∀ tick, Packer.fieldBytes host packer (.timePoint tick) =
      Packer.fieldBytes host' packer' (.timePoint tick))
    {k : Nat} (hk : k < wanted) {message : List UInt8} (hget : (ticks.map fun tick =>
      Packer.fieldBytes host packer (.timePoint tick))[k]? = some message)
    {w : Setup.Local j} {us : List TimeTick} (hw : TicksWantedAt embed' ticks wanted k w us) :
    ∃ w' us', Network.Takes setup.network (fun c => (transport c).queue) c (j := j)
        w us message w' us' ∧
      TicksWantedAt embed' ticks wanted (k + 1) w' us' := by
  obtain ⟨buffer, hb, rfl⟩ := hw
  rw [List.getElem?_map] at hget
  obtain ⟨tick, htick, rfl⟩ := Option.map_eq_some_iff.mp hget
  have hticks : ticks.take (k + 1) = ticks.take k ++ [tick] := by
    rw [List.take_add_one, htick]
    rfl
  have hroom : (⟨ticks.take k, wanted, 0⟩ : Measurer).measurements.length <
      (⟨ticks.take k, wanted, 0⟩ : Measurer).capacity :=
    Nat.lt_of_le_of_lt (List.length_take_le k ticks) hk
  have hwaits := Worker.waits host' packer' c buffer hroom us
  obtain ⟨unpacked, hunpacked, htakes⟩ := Worker.takes host' packer' c tick hroom hb us
  rw [← hformat] at htakes
  have hlength : (Packer.fieldBytes host packer (.timePoint tick)).length ≤
      buffer.reset.capacity.toNat := by
    rw [Packer.fieldBytes_length]
    exact Nat.le_of_ble_eq_true rfl
  refine ⟨_, _, .intro (hwaits.map hreceiver) (hreceiver _)
    ((transport c).deliver_whole _ _ hlength) (htakes.map hreceiver), unpacked, hunpacked, ?_⟩
  rw [hticks]

theorem tick_passes
    (hsender : ∀ t, setup.request i (embed t) = (TickSender.request host packer c t).map embed)
    (hreceiver : ∀ w, setup.request j (embed' w) = (Worker.request host' packer' c w).map embed')
    (hformat : ∀ tick, Packer.fieldBytes host packer (.timePoint tick) =
      Packer.fieldBytes host' packer' (.timePoint tick))
    (hfit : ∀ message : List UInt8, message.length = 8 →
      (transport c).weight message ≤ (transport c).capacity)
    {k : Nat} (hk : k < ticks.length) {p : Setup.Local i} {ts us : List TimeTick}
    {w : Setup.Local j} (hp : TicksSentAt embed ticks capacity k p ts)
    (hw : TicksReceivedAt embed' ticks k w us) :
    ∃ p' ts' w' us', Network.Passes setup.network (fun c => (transport c).queue) c (i := i) (j := j)
        p ts w us p' ts' w' us' ∧
      TicksSentAt embed ticks capacity (k + 1) p' ts' ∧
      TicksReceivedAt embed' ticks (k + 1) w' us' := by
  obtain ⟨tick, _, hget, _, _⟩ := exists_at hk
  have hmessage : (ticks.map fun tick => Packer.fieldBytes host packer (.timePoint tick))[k]? =
      some (Packer.fieldBytes host packer (.timePoint tick)) := by
    rw [List.getElem?_map, hget]
    rfl
  have hlength : (Packer.fieldBytes host packer (.timePoint tick)).length = 8 := by
    rw [Packer.fieldBytes_length]
    rfl
  obtain ⟨p', ts', hgive, hp'⟩ := tick_gives hsender hmessage hp
  obtain ⟨w', us', htake, hw'⟩ := tick_takes hreceiver hformat hk hmessage hw
  exact ⟨p', ts', w', us', hgive.passes htake (hfit _ hlength), hp', hw'⟩

variable {s : Network.State setup.network (links transport)}

/-- A sender of ticks and a worker run through their loops. -/
theorem leads_ticks (hij : i ≠ j)
    (hsender : ∀ t, setup.request i (embed t) = (TickSender.request host packer c t).map embed)
    (hreceiver : ∀ w, setup.request j (embed' w) = (Worker.request host' packer' c w).map embed')
    (hformat : ∀ tick, Packer.fieldBytes host packer (.timePoint tick) =
      Packer.fieldBytes host' packer' (.timePoint tick))
    (hfit : ∀ message : List UInt8, message.length = 8 →
      (transport c).weight message ≤ (transport c).capacity)
    {buffer buffer' : Buffer} (hb : buffer.Valid) (hb' : buffer'.Valid)
    (hp : s.process i = embed ⟨⟨ticks, capacity, 0⟩, buffer, .hasNext⟩)
    (hw : s.process j = embed' ⟨⟨[], ticks.length, 0⟩, buffer', .isFull⟩)
    (hempty : s.channel c = ([] : List (List UInt8))) :
    ∃ t, setup.network.Leads (links transport) s t ∧ t.channel = s.channel ∧
      (∃ packed, t.process i = embed ⟨⟨ticks, capacity, ticks.length⟩, packed, .finished⟩) ∧
      (∃ unpacked, t.process j = embed' ⟨⟨ticks, ticks.length, 0⟩, unpacked, .finished⟩) ∧
      ∀ k, k ≠ i → k ≠ j → t.process k = s.process k := by
  obtain ⟨_, ts, _, us, ⟨packed, _, rfl⟩, ⟨unpacked, _, rfl⟩, hstream⟩ :=
    Network.leads_stream (A := TicksSentAt embed ticks capacity)
      (B := TicksReceivedAt embed' ticks) (n := ticks.length) hij
      (fun k hk {_ _ _ _} hA hB => tick_passes hsender hreceiver hformat hfit hk hA hB)
      ⟨buffer, hb, hp⟩ ⟨buffer', hb', hw⟩ hempty
  have hfull : (⟨ticks, ticks.length, 0⟩ : Measurer).isFull = true := decide_eq_true rfl
  rw [List.take_length] at hstream
  refine ⟨_, hstream.both hij ((TickSender.ends host packer c ts).map hsender)
    ((Worker.ends host' packer' c hfull us).map hreceiver), rfl, ⟨packed, ?_⟩,
    ⟨unpacked, Network.State.put_process⟩, ?_⟩
  · exact (Network.State.put_process_of_ne hij).trans Network.State.put_process
  · intro k hki hkj
    exact (Network.State.put_process_of_ne hkj).trans (Network.State.put_process_of_ne hki)

end Ticks

section Whole
variable {setup : Setup} {transport : Connection → Transport} {msgs : List StdString}
variable {chunksTotalCount : UInt64} {producerTicks consumerTicks : List TimeTick}
variable {s : Network.State setup.network (links transport)}

/-- The Producer and the Consumer run through their loops over the chunks. -/
theorem leads_chunks
    (h : setup.Carries transport msgs chunksTotalCount producerTicks consumerTicks)
    {itMsgs : Nat} {buffer buffer' : Buffer} (hb : buffer.Valid) (hb' : buffer'.Valid)
    (hp : s.process .producer =
      (⟨⟨msgs, itMsgs⟩, Measurer.new chunksTotalCount, buffer, .toFirst⟩ : Producer))
    (hc : s.process .consumer =
      (⟨Measurer.new chunksTotalCount, buffer', [], .isFull⟩ : Consumer))
    (hts : s.readings .producer = producerTicks) (hus : s.readings .consumer = consumerTicks)
    (hempty : s.channel .consumerProducer = ([] : List (List UInt8))) :
    ∃ t, setup.network.Leads (links transport) s t ∧ t.channel = s.channel ∧
      (∃ (p : Producer) (packed : Buffer), packed.Valid ∧ t.process .producer =
        p.withTicks ⟨⟨producerTicks, chunksTotalCount.toNat, 0⟩, packed, .hasNext⟩) ∧
      (∃ (c : Consumer) (unpacked : Buffer), unpacked.Valid ∧ c.messages = msgs ∧
        t.process .consumer =
          c.withTicks ⟨⟨consumerTicks, chunksTotalCount.toNat, 0⟩, unpacked, .hasNext⟩) ∧
      ∀ k, k ≠ .producer → k ≠ .consumer → t.process k = s.process k := by
  have hij : Thread.producer ≠ Thread.consumer := nofun
  let first : Producer := ⟨⟨msgs, 0⟩, Measurer.new chunksTotalCount, buffer, .hasNext⟩
  let s₁ : Network.State setup.network (links transport) :=
    s.put .producer first producerTicks s.channel
  have hstart : setup.network.Leads (links transport) s s₁ :=
    Network.leads_silent (N := setup.network) (i := .producer) (q := first)
      (.internal rfl (.refl _ _)) hp hts
  have hproducer : ProducerAt msgs chunksTotalCount producerTicks 0 (s₁.process .producer)
      (s₁.readings .producer) :=
    ⟨buffer, hb, Network.State.put_process, Network.State.put_readings⟩
  have hconsumer : ConsumerAt msgs chunksTotalCount consumerTicks 0 (s₁.process .consumer)
      (s₁.readings .consumer) :=
    ⟨buffer', hb', (Network.State.put_process_of_ne hij.symm).trans hc,
      (Network.State.put_readings_of_ne hij.symm).trans hus⟩
  obtain ⟨_, ts, _, us, ⟨packed, hpacked, rfl, _⟩, ⟨unpacked, hunpacked, rfl, _⟩, hstream⟩ :=
    Network.leads_stream (N := setup.network) (i := .producer) (j := .consumer)
      (A := ProducerAt msgs chunksTotalCount producerTicks)
      (B := ConsumerAt msgs chunksTotalCount consumerTicks) (n := chunksTotalCount.toNat) hij
      (fun k hk {_ _ _ _} hA hB => chunk_passes h hk hA hB) hproducer hconsumer hempty
  rw [List.take_of_length_le h.msgs_count.le, List.take_of_length_le h.producerTicks_count.le,
    List.take_of_length_le h.consumerTicks_count.le] at hstream
  let p : Producer := ⟨⟨msgs, chunksTotalCount.toNat⟩,
    ⟨producerTicks, chunksTotalCount.toNat, 0⟩, packed, .ticks .toFirst⟩
  let c : Consumer := ⟨⟨consumerTicks, chunksTotalCount.toNat, 0⟩, unpacked, msgs, .ticks .toFirst⟩
  have hfull : c.measurer.isFull = true := decide_eq_true h.consumerTicks_count
  have hsent : Silent (setup.request .producer) { p with stage := .hasNext } ts
      (p.withTicks ⟨p.measurer, packed, .hasNext⟩) ts :=
    (Producer.ends _ _ _ h.msgs_count.symm ts).trans
      ((TickSender.starts _ _ _ ts).map (Producer.request_ticks _ _ _ p))
  have hreceived : Silent (setup.request .consumer) { c with stage := .isFull } us
      (c.withTicks ⟨c.measurer, unpacked, .hasNext⟩) us :=
    (Consumer.ends _ _ _ _ hfull us).trans
      ((TickSender.starts _ _ _ us).map (Consumer.request_ticks _ _ _ _ c))
  refine ⟨_, hstart.trans (hstream.both hij hsent hreceived), rfl, ⟨p, packed, hpacked, ?_⟩,
    ⟨c, unpacked, hunpacked, rfl, Network.State.put_process⟩, ?_⟩
  · exact (Network.State.put_process_of_ne hij).trans Network.State.put_process
  · intro k hkp hkc
    exact ((Network.State.put_process_of_ne hkc).trans
      (Network.State.put_process_of_ne hkp)).trans (Network.State.put_process_of_ne hkp)

end Whole

section Refusals
variable {host : Endianness} {packer packer' : Packer} {c connection : Connection} {b : Buffer}

theorem TickSender.refused {t : TickSender} {next : Except Failure Unit → TickSender}
    (h : t.request host packer connection = .send c b next) (e : Failure) :
    (next (.error e)).stage = .failed e := by
  unfold TickSender.request at h
  split at h
  case h_4 =>
    split at h
    · cases h
    · split at h
      · cases h
      · cases h
  case h_5 =>
    cases h
    rfl
  all_goals cases h

theorem Producer.refused {p : Producer} {next : Except Failure Unit → Producer}
    (h : p.request host packer packer' = .send c b next) (e : Failure) :
    (next (.error e)).stage = .failed e ∨ (next (.error e)).stage = .ticks (.failed e) := by
  unfold Producer.request at h
  split at h
  case h_5 =>
    split at h
    · cases h
    · split at h
      · cases h
      · cases h
  case h_6 =>
    cases h
    exact .inl rfl
  case h_8 =>
    obtain ⟨next', hsend, rfl⟩ := Request.of_map_send h
    exact .inr (congrArg ProducerStage.ticks (TickSender.refused hsend e))
  all_goals cases h

theorem Consumer.refused {alloc : UInt64 → Bool} {consumer : Consumer}
    {next : Except Failure Unit → Consumer}
    (h : consumer.request host alloc packer packer' = .send c b next) (e : Failure) :
    (next (.error e)).stage = .ticks (.failed e) := by
  unfold Consumer.request at h
  split at h
  case h_4 =>
    split at h
    · cases h
    · cases h
  case h_7 =>
    obtain ⟨next', hsend, rfl⟩ := Request.of_map_send h
    exact congrArg ConsumerStage.ticks (TickSender.refused hsend e)
  all_goals cases h

end Refusals

section Result
variable {setup : Setup} {link : Connection → Link Buffer Failure}

/-- A thread has ended with an exception. -/
def ThreadFailed : (i : Thread) → Setup.Local i → Prop
  | .producer, (p : Producer) => ∃ e, p.stage = .failed e ∨ p.stage = .ticks (.failed e)
  | .consumer, (c : Consumer) => ∃ e, c.stage = .failed e ∨ c.stage = .ticks (.failed e)
  | .consumerWorker, (w : Worker) => ∃ e, w.stage = .failed e
  | .producerWorker, (w : Worker) => ∃ e, w.stage = .failed e

theorem ThreadFailed.halts {i : Thread} {p : Setup.Local i} (h : ThreadFailed i p) :
    setup.request i p = .halt := by
  cases i with
  | producer =>
    change Producer.request _ _ _ p = .halt
    unfold Producer.request
    obtain ⟨e, h | h⟩ := h
    · rw [h]
    · rw [h]
      rfl
  | consumer =>
    change Consumer.request _ _ _ _ p = .halt
    unfold Consumer.request
    obtain ⟨e, h | h⟩ := h
    · rw [h]
    · rw [h]
      rfl
  | consumerWorker =>
    obtain ⟨e, h⟩ := h
    change Worker.request _ _ _ p = .halt
    unfold Worker.request
    rw [h]
  | producerWorker =>
    obtain ⟨e, h⟩ := h
    change Worker.request _ _ _ p = .halt
    unfold Worker.request
    rw [h]

/-- A thread has left its last loop. -/
def Finished : (i : Thread) → Setup.Local i → Prop
  | .producer, (p : Producer) => p.stage = .ticks .finished
  | .consumer, (c : Consumer) => c.stage = .ticks .finished
  | .consumerWorker, (w : Worker) => w.stage = .finished
  | .producerWorker, (w : Worker) => w.stage = .finished

theorem Finished.halts {i : Thread} {q : Setup.Local i} (h : Finished i q) :
    setup.request i q = .halt := by
  cases i with
  | producer =>
    change Producer.request _ _ _ q = .halt
    unfold Producer.request
    rw [h]
    rfl
  | consumer =>
    change Consumer.request _ _ _ _ q = .halt
    unfold Consumer.request
    rw [h]
    rfl
  | consumerWorker =>
    change Worker.request _ _ _ q = .halt
    unfold Worker.request
    rw [h]
  | producerWorker =>
    change Worker.request _ _ _ q = .halt
    unfold Worker.request
    rw [h]

theorem Finished.not_failed {i : Thread} {q : Setup.Local i} (h : Finished i q) :
    ¬ ThreadFailed i q := by
  intro hfailed
  cases i with
  | producer =>
    obtain ⟨e, hfailed | hfailed⟩ := hfailed
    · cases h.symm.trans hfailed
    · cases h.symm.trans hfailed
  | consumer =>
    obtain ⟨e, hfailed | hfailed⟩ := hfailed
    · cases h.symm.trans hfailed
    · cases h.symm.trans hfailed
  | consumerWorker =>
    obtain ⟨e, hfailed⟩ := hfailed
    cases h.symm.trans hfailed
  | producerWorker =>
    obtain ⟨e, hfailed⟩ := hfailed
    cases h.symm.trans hfailed

/-- A thread whose message is refused ends with that exception. -/
theorem threadFailed_of_refused {setup : Setup} {i : Thread} {p : Setup.Local i} {c : Connection}
    {b : Buffer} {next : Except Failure Unit → Setup.Local i}
    (h : setup.request i p = .send c b next) (e : Failure) : ThreadFailed i (next (.error e)) := by
  cases i with
  | producer => exact ⟨e, Producer.refused h e⟩
  | consumer => exact ⟨e, .inr (Consumer.refused h e)⟩
  | consumerWorker => exact absurd h Worker.never_sends
  | producerWorker => exact absurd h Worker.never_sends

/-- All four loops are left, every chunk arrived, and the Analyzer has all ticks. -/
structure Measured (msgs : List StdString) (producerTicks consumerTicks : List TimeTick)
    (s : Network.State setup.network link) : Prop where
  producer : (producerOf s).stage = .ticks .finished
  consumer : (consumerOf s).stage = .ticks .finished
  consumerWorker : (consumerWorkerOf s).stage = .finished
  producerWorker : (producerWorkerOf s).stage = .finished
  messages : (consumerOf s).messages = msgs
  producerMeasurements : (producerWorkerOf s).measurer.measurements = producerTicks
  consumerMeasurements : (consumerWorkerOf s).measurer.measurements = consumerTicks

variable {msgs : List StdString} {producerTicks consumerTicks : List TimeTick}
variable {s t : Network.State setup.network link} {es : List (Thread × Option TimeTick)}

theorem Measured.finished (h : Measured msgs producerTicks consumerTicks s) (i : Thread) :
    Finished i (s.process i) := by
  cases i with
  | producer => exact h.producer
  | consumer => exact h.consumer
  | consumerWorker => exact h.consumerWorker
  | producerWorker => exact h.producerWorker

theorem Measured.halts (h : Measured msgs producerTicks consumerTicks s) (i : Thread) :
    setup.network.request i (s.process i) = .halt := (h.finished i).halts

theorem Measured.not_failed (h : Measured msgs producerTicks consumerTicks s) (i : Thread) :
    ¬ ThreadFailed i (s.process i) := (h.finished i).not_failed

/-- On the way to a complete measurement no thread fails. -/
theorem Measured.never_failed (h : Measured msgs producerTicks consumerTicks t)
    (hrun : Run (setup.network.Steps link) s es t) (i : Thread) :
    ¬ ThreadFailed i (s.process i) := by
  intro hfailed
  have hsame := Network.halted hfailed.halts hrun
  exact h.not_failed i (hsame.symm ▸ hfailed)

end Result

section Refused
variable {setup : Setup} {transport : Connection → Transport}
variable {msgs : List StdString} {producerTicks consumerTicks : List TimeTick}
variable {s t u : Network.State setup.network (links transport)}
variable {es fs : List (Thread × Option TimeTick)}

/-- Nothing is ever sent that the connections of a complete measurement refuse. -/
theorem Measured.never_refused (h : Measured msgs producerTicks consumerTicks t)
    (hrun : Run (setup.network.Steps (links transport)) s es t)
    (hrun' : Run (setup.network.Steps (links transport)) s fs u) {i : Thread} {c : Connection}
    {b : Buffer} {next : Except Failure Unit → setup.network.Local i}
    (hreq : setup.network.request i (u.process i) = .send c b next) :
    (transport c).weight b.contents ≤ (transport c).capacity := by
  by_contra hbig
  have hsend : (links transport c).send (u.channel c) b =
      some (.error (transport c).refusal, u.channel c) :=
    (transport c).queue.send_refused (Nat.lt_of_not_le hbig)
  obtain ⟨gs, hrefused⟩ := Network.leads_send hreq hsend
  obtain ⟨hs, hrest, _⟩ := Commuting.completes
    (Network.commuting setup.network fun c => (transport c).queue.channel)
    (Network.ended_of_halt h.halts) hrun (hrun'.trans hrefused)
  apply h.never_failed hrest i
  rw [Network.State.put_process]
  exact threadFailed_of_refused hreq _

end Refused

section Complete
variable {setup : Setup} {transport : Connection → Transport} {generator : SimpleRoundGenerator}
variable {chunksTotalCount : UInt64} {producerTicks consumerTicks : List TimeTick}
variable {buffers : Thread → Buffer} {readings : Thread → List TimeTick}

/-- One schedule: all chunks, then the Producer's ticks, then the Consumer's. -/
theorem leads_measured
    (h : setup.Carries transport generator.msgs chunksTotalCount producerTicks consumerTicks)
    (hbuffers : ∀ i, (buffers i).Valid) (hproducer : readings .producer = producerTicks)
    (hconsumer : readings .consumer = consumerTicks) :
    ∃ t, setup.network.Leads (links transport)
        (setup.start (links transport) generator (.same chunksTotalCount) buffers readings
          fun _ => []) t ∧
      Measured generator.msgs producerTicks consumerTicks t ∧
      (producerOf t).measurer.measurements = producerTicks ∧
      (consumerOf t).measurer.measurements = consumerTicks := by
  let s := setup.start (links transport) generator (.same chunksTotalCount) buffers readings
    fun _ => []
  obtain ⟨t₁, hlead₁, hchannel₁, ⟨p, packed, hpacked, hp⟩, ⟨c, unpacked, hunpacked, hmsgs, hc⟩,
    hothers₁⟩ := leads_chunks (s := s) h (hbuffers .producer) (hbuffers .consumer) rfl rfl hproducer
      hconsumer rfl
  have hnew : ∀ ticks : List TimeTick, ticks.length = chunksTotalCount.toNat → ∀ b : Buffer,
      (⟨Measurer.new chunksTotalCount, b, .isFull⟩ : Worker) =
        ⟨⟨[], ticks.length, 0⟩, b, .isFull⟩ := by
    intro ticks hticks b
    rw [hticks]
    rfl
  have hworker₁ := (hothers₁ .producerWorker nofun nofun).trans
    (hnew producerTicks h.producerTicks_count (buffers .producerWorker))
  have hsender : ∀ t, setup.request .producer (p.withTicks t) =
      (TickSender.request setup.producerHost setup.producerMeasurerConnectionPacker
        .measurerProducer t).map p.withTicks := fun _ => rfl
  obtain ⟨t₂, hlead₂, hchannel₂, ⟨packed₂, hp₂⟩, ⟨unpacked₂, hw₂⟩, hothers₂⟩ :=
    leads_ticks (i := .producer) (j := .producerWorker) nofun hsender
      (fun w => (Request.map_id _).symm)
      (fun tick => fieldBytes_wireOrder h.agrees.producerTicks _) (h.ticks_fit _ nofun) hpacked
      (hbuffers .producerWorker) hp hworker₁ (congrFun hchannel₁ _)
  have hc₂ := (hothers₂ .consumer nofun nofun).trans hc
  have hworker₂ := ((hothers₂ .consumerWorker nofun nofun).trans
    (hothers₁ .consumerWorker nofun nofun)).trans
    (hnew consumerTicks h.consumerTicks_count (buffers .consumerWorker))
  have hsender' : ∀ t, setup.request .consumer (c.withTicks t) =
      (TickSender.request setup.consumerHost setup.consumerMeasurerConnectionPacker
        .measurerConsumer t).map c.withTicks := fun _ => rfl
  obtain ⟨t₃, hlead₃, _, ⟨packed₃, hp₃⟩, ⟨unpacked₃, hw₃⟩, hothers₃⟩ :=
    leads_ticks (i := .consumer) (j := .consumerWorker) nofun hsender'
      (fun w => (Request.map_id _).symm)
      (fun tick => fieldBytes_wireOrder h.agrees.consumerTicks _) (h.ticks_fit _ nofun) hunpacked
      (hbuffers .consumerWorker) hc₂ hworker₂ (congrFun (hchannel₂.trans hchannel₁) _)
  have hproducer₃ := (hothers₃ .producer nofun nofun).trans hp₂
  have hworker₃ := (hothers₃ .producerWorker nofun nofun).trans hw₂
  exact ⟨t₃, (hlead₁.trans hlead₂).trans hlead₃,
    { producer := congrArg Producer.stage hproducer₃
      consumer := congrArg Consumer.stage hp₃
      consumerWorker := congrArg Worker.stage hw₃
      producerWorker := congrArg Worker.stage hworker₃
      messages := (congrArg Consumer.messages hp₃).trans hmsgs
      producerMeasurements := congrArg (fun w : Worker => w.measurer.measurements) hworker₃
      consumerMeasurements := congrArg (fun w : Worker => w.measurer.measurements) hw₃ },
    congrArg (fun p : Producer => p.measurer.measurements) hproducer₃,
    congrArg (fun c : Consumer => c.measurer.measurements) hp₃⟩

end Complete

/-- The total time is the last tick of the Consumer less the first of the Producer. -/
def totalOf (producerTicks consumerTicks : List TimeTick) : Option Int :=
  consumerTicks.getLast?.bind fun last => producerTicks.head?.map fun first =>
    last.toInt - first.toInt

theorem Measured.statistics {setup : Setup} {link : Connection → Link Buffer Failure}
    {msgs : List StdString} {producerTicks consumerTicks : List TimeTick}
    {s : Network.State setup.network link} (h : Measured msgs producerTicks consumerTicks s)
    (hcounts : producerTicks.length = consumerTicks.length) :
    (Statistics.process (producerWorkerOf s).measurer (consumerWorkerOf s).measurer).run () =
      .ok (Statistics.shippings producerTicks consumerTicks,
        totalOf producerTicks consumerTicks) () := by
  have hcount : (producerWorkerOf s).measurer.count = (consumerWorkerOf s).measurer.count := by
    unfold Measurer.count
    rw [h.producerMeasurements, h.consumerMeasurements, hcounts]
  have htotal : Statistics.totalTime (producerWorkerOf s).measurer (consumerWorkerOf s).measurer =
      totalOf producerTicks consumerTicks := by
    unfold Statistics.totalTime Measurer.lastTick Measurer.firstTick totalOf
    rw [h.producerMeasurements, h.consumerMeasurements]
    cases consumerTicks.getLast? <;> cases producerTicks.head? <;> rfl
  rw [Statistics.process_eq hcount, h.producerMeasurements, h.consumerMeasurements, htotal]
  rfl

/-- What holds at every moment of a measurement: no thread has failed, and what arrived is the
beginning of what was sent. -/
structure InProgress {setup : Setup} {link : Connection → Link Buffer Failure}
    (msgs : List StdString) (producerTicks consumerTicks : List TimeTick)
    (s : Network.State setup.network link) : Prop where
  not_failed : ∀ i, ¬ ThreadFailed i (s.process i)
  messages : (consumerOf s).messages <+: msgs
  producerMeasurements : (producerWorkerOf s).measurer.measurements <+: producerTicks
  consumerMeasurements : (consumerWorkerOf s).measurer.measurements <+: consumerTicks

theorem Measured.inProgress {setup : Setup} {link : Connection → Link Buffer Failure}
    {msgs : List StdString} {producerTicks consumerTicks : List TimeTick}
    {s t : Network.State setup.network link} {es : List (Thread × Option TimeTick)}
    (h : Measured msgs producerTicks consumerTicks t)
    (hrun : Run (setup.network.Steps link) s es t) :
    InProgress msgs producerTicks consumerTicks s where
  not_failed := h.never_failed hrun
  messages := h.messages ▸ messages_grow hrun
  producerMeasurements := h.producerMeasurements ▸ producerWorker_grows hrun
  consumerMeasurements := h.consumerMeasurements ▸ consumerWorker_grows hrun

/-- Over connections that carry the chunks and the ticks, every run of the four threads can
be completed, all complete runs take the same steps in some order, and nothing is lost,
repeated or moved on the way. -/
theorem measurement_completes (setup : Setup) (transport : Connection → Transport)
    (generator : SimpleRoundGenerator) (chunksTotalCount : UInt64)
    (buffers : Thread → Buffer) (readings : Thread → List TimeTick)
    (hbuffers : ∀ i, (buffers i).Valid)
    (h : setup.Carries transport generator.msgs chunksTotalCount (readings .producer)
      (readings .consumer)) :
    ∃ es t, Measured generator.msgs (readings .producer) (readings .consumer) t ∧
      (Statistics.process (producerWorkerOf t).measurer (consumerWorkerOf t).measurer).run () =
        .ok (Statistics.shippings (readings .producer) (readings .consumer),
          totalOf (readings .producer) (readings .consumer)) () ∧
      ∀ fs u, Run (setup.network.Steps (links transport))
          (setup.start (links transport) generator (.same chunksTotalCount) buffers readings
            fun _ => []) fs u →
        InProgress generator.msgs (readings .producer) (readings .consumer) u ∧
        ∃ gs, Run (setup.network.Steps (links transport)) u gs t ∧ (fs ++ gs).Perm es := by
  obtain ⟨t, ⟨es, hrun⟩, hmeasured, _⟩ := leads_measured h hbuffers rfl rfl
  refine ⟨es, t, hmeasured,
    hmeasured.statistics (h.producerTicks_count.trans h.consumerTicks_count.symm), ?_⟩
  intro fs u hfs
  obtain ⟨gs, hgs, hperm⟩ := Commuting.completes
    (Network.commuting setup.network fun c => (transport c).queue.channel)
    (Network.ended_of_halt hmeasured.halts) hrun hfs
  exact ⟨hmeasured.inProgress hgs, gs, hgs, hperm⟩

theorem Measured.of_process {setup : Setup} {link link' : Connection → Link Buffer Failure}
    {s : Network.State setup.network link} {t : Network.State setup.network link'}
    {msgs : List StdString} {producerTicks consumerTicks : List TimeTick}
    (h : Measured msgs producerTicks consumerTicks s) (hsame : t.process = s.process) :
    Measured msgs producerTicks consumerTicks t := by
  obtain ⟨process, readings, channel⟩ := t
  cases hsame
  exact ⟨h.producer, h.consumer, h.consumerWorker, h.producerWorker, h.messages,
    h.producerMeasurements, h.consumerMeasurements⟩

/-- Whatever the schedule, no thread fails, the measurement can be completed, by the same steps
in some order, and nothing is lost, repeated or moved on the way. -/
def Completes {setup : Setup} {link : Connection → Link Buffer Failure} (msgs : List StdString)
    (producerTicks consumerTicks : List TimeTick) (s : Network.State setup.network link) : Prop :=
  ∃ es, ∀ fs u, Run (setup.network.Steps link) s fs u →
    InProgress msgs producerTicks consumerTicks u ∧
    ∃ gs t, Run (setup.network.Steps link) u gs t ∧ (fs ++ gs).Perm es ∧
      Measured msgs producerTicks consumerTicks t ∧
      (Statistics.process (producerWorkerOf t).measurer (consumerWorkerOf t).measurer).run () =
        .ok (Statistics.shippings producerTicks consumerTicks, totalOf producerTicks consumerTicks)
          ()

/-! Other links that answer as these connections do, at least to messages that they do not
refuse. -/

section Links
variable {setup : Setup} {transport : Connection → Transport}
variable {link : Connection → Link Buffer Failure} {generator : SimpleRoundGenerator}
variable {chunksTotalCount : UInt64} {buffers : Thread → Buffer}
variable {readings : Thread → List TimeTick} {channel : ∀ c, (link c).State}
variable (r : ∀ c, Refinement (link c) (links transport c))

theorem related_start (hempty : ∀ c, (r c).Related (channel c) []) : Network.Related r
    (setup.start link generator (.same chunksTotalCount) buffers readings channel)
    (setup.start (links transport) generator (.same chunksTotalCount) buffers readings
      fun _ => []) :=
  ⟨rfl, rfl, hempty⟩

variable (hadmits : ∀ (c : Connection) (b : Buffer),
  (transport c).weight b.contents ≤ (transport c).capacity → (r c).Admits b)
include hadmits

theorem admitted_of_carries (hbuffers : ∀ i, (buffers i).Valid)
    (h : setup.Carries transport generator.msgs chunksTotalCount (readings .producer)
      (readings .consumer)) {es : List (Thread × Option TimeTick)}
    {s : Network.State setup.network (links transport)}
    (hrun : Run (setup.network.Steps (links transport))
      (setup.start (links transport) generator (.same chunksTotalCount) buffers readings
        fun _ => []) es s) :
    Network.Admitted r s.process := by
  obtain ⟨t, ⟨fs, hfs⟩, hmeasured, _⟩ := leads_measured h hbuffers rfl rfl
  intro i c b next hreq
  exact hadmits c b (hmeasured.never_refused hfs hrun hreq)

/-- The measurement completes over them too. -/
theorem completes_over (hbuffers : ∀ i, (buffers i).Valid)
    (h : setup.Carries transport generator.msgs chunksTotalCount (readings .producer)
      (readings .consumer)) (hempty : ∀ c, (r c).Related (channel c) []) :
    Completes generator.msgs (readings .producer) (readings .consumer)
      (setup.start link generator (.same chunksTotalCount) buffers readings channel) := by
  obtain ⟨t, ⟨es, hrun⟩, hmeasured, _⟩ := leads_measured h hbuffers rfl rfl
  refine ⟨es, fun fs u hfs => ?_⟩
  obtain ⟨gs, t', hgs, hperm, hrel⟩ := (related_start r hempty).completes
    (fun _ _ hv => admitted_of_carries r hadmits hbuffers h hv)
    (Network.ended_of_halt hmeasured.halts) hrun hfs
  have hmeasured' := hmeasured.of_process hrel.process
  exact ⟨hmeasured'.inProgress hgs, gs, t', hgs, hperm, hmeasured', hmeasured'.statistics
    (h.producerTicks_count.trans h.consumerTicks_count.symm)⟩

end Links

/-- A connection with room for 10000 bytes. -/
def plainTransport : Transport where
  weight := List.length
  capacity := 10000
  refusal := .exception "message is not fit"
  deliver b message :=
    if message.length ≤ b.capacity.toNat then .ok (b.fill message)
    else .error (.exception "message is not fit")
  deliver_whole _ _ h := if_pos h

/-- Everything over pipes, on little-endian hosts. -/
def pipeSetup : Setup where
  producerHost := .kLittle
  consumerHost := .kLittle
  analyzerHost := .kLittle
  producer := ⟨.kPipe, .kPipe⟩
  consumer := ⟨.kPipe, .kPipe⟩
  analyzer := ⟨.kPipe, .kPipe⟩
  alloc := fun _ => true

/-- The clock at each chunk. -/
def twoReadings : Thread → List TimeTick
  | .producer => [1, 5]
  | .consumer => [3, 9]
  | _ => []

theorem pipeSetup_carries : pipeSetup.Carries (fun _ => plainTransport)
    SimpleRoundGenerator.twoLetters.msgs 2 [1, 5] [3, 9] where
  agrees := ⟨rfl, rfl, rfl⟩
  msgs_count := rfl
  producerTicks_count := rfl
  consumerTicks_count := rfl
  sizes := by decide
  alloc _ _ := rfl
  chunks_fit msg hmem := by
    change (Packer.fieldBytes _ _ _).length ≤ 10000
    rw [Packer.fieldBytes_length]
    revert msg
    decide
  ticks_fit _ _ message hlength := by
    change message.length ≤ 10000
    omega

theorem measurement_completes_sample : ∃ t : Network.State pipeSetup.network
      (links fun _ => plainTransport),
    Measured SimpleRoundGenerator.twoLetters.msgs [1, 5] [3, 9] t ∧
      (Statistics.process (producerWorkerOf t).measurer (consumerWorkerOf t).measurer).run () =
        .ok ([2, 4], some 8) () := by
  obtain ⟨_, t, hmeasured, hstatistics, _⟩ := measurement_completes pipeSetup
    (fun _ => plainTransport) SimpleRoundGenerator.twoLetters 2
    (fun _ => Buffer.new (bytesAt []) 4096) twoReadings (fun _ => Buffer.valid_new_page _) pipeSetup_carries
  exact ⟨t, hmeasured, hstatistics⟩

/-- Over connections that stay open, also when they refuse messages, each tick of the Consumer
comes after the tick of the Producer with the same number, however many each of them counts. -/
theorem measurement_in_order {setup : Setup} {transport : Connection → Transport}
    {generator : SimpleRoundGenerator} {counts : Counts} {buffers : Thread → Buffer}
    {readings : Thread → List TimeTick} {es : List (Thread × Option TimeTick)}
    {s : Network.State setup.network (links transport)}
    (hrun : Run (setup.network.Steps (links transport))
      (setup.start (links transport) generator counts buffers readings fun _ => [])
        es s) :
    (producerOf s).measurer.measurements = es.filterMap producerReading ∧
    (consumerOf s).measurer.measurements = es.filterMap consumerReading ∧
    Precedes (fun e => (producerReading e).isSome) (fun e => (consumerReading e).isSome) es ∧
    ((es.filterMap Prod.snd).Pairwise (· ≤ ·) → ∀ (i : Nat) (p c : TimeTick),
      (producerOf s).measurer.measurements[i]? = some p →
      (consumerOf s).measurer.measurements[i]? = some c → p ≤ c) := by
  have hahead : AheadAt es s := Run.invariant_history (I := AheadAt)
    (aheadAt_start generator counts buffers readings) (fun _ _ _ _ h => h.step) hrun
  refine ⟨hahead.producerTicks, hahead.consumerTicks, hahead.order, ?_⟩
  intro hmono i p c hp hc
  rw [hahead.producerTicks] at hp
  rw [hahead.consumerTicks] at hc
  apply hahead.order.readings_le ?_ hp hc
  apply (List.pairwise_filterMap.mp hmono).imp
  intro e e' hle a ha b hb
  exact hle a (reading_of_producerReading ha) b (reading_of_consumerReading hb)

theorem measurement_in_order_sample :
    ∃ (es : List (Thread × Option TimeTick))
      (s : Network.State pipeSetup.network (links fun _ => plainTransport)),
      (consumerOf s).messages = SimpleRoundGenerator.twoLetters.msgs ∧
      Precedes (fun e => (producerReading e).isSome) (fun e => (consumerReading e).isSome) es := by
  obtain ⟨s, ⟨es, hrun⟩, hmeasured, _⟩ := leads_measured pipeSetup_carries
    (fun _ => Buffer.valid_new_page (bytesAt [])) (rfl : twoReadings .producer = [1, 5])
    (rfl : twoReadings .consumer = [3, 9])
  exact ⟨es, s, hmeasured.messages, (measurement_in_order hrun).2.2.1⟩

end IpcChecker.Actors
