import IpcChecker.Actors

/-!
# Rounds of the actors' loops

What each loop does by itself between two calls on its connection, and how it ends.
-/

namespace IpcChecker.Actors
open Shared
set_option autoImplicit false

section Buffers
variable {buffer : Buffer} {message : List UInt8}

/-- What Reset and Pack leave in a valid buffer. -/
theorem exists_packed {pack : Action Buffer Unit} (hwrite : Buffer.Writes pack message)
    (hfit : message.length ≤ 10000) (hb : buffer.Valid) :
    ∃ packed, pack.run buffer.reset = .ok () packed ∧ packed.Valid ∧ packed.contents = message := by
  have hroom : message.length ≤ buffer.reset.room := Buffer.reset_room hb ▸ hfit
  exact ⟨_, (hwrite _ hb.reset).1 hroom, Buffer.append_valid hb.reset hroom,
    Buffer.contents_append hb.reset rfl hroom⟩

/-- What Unpack makes of a buffer in which a whole message arrived. -/
theorem exists_unpacked {α : Type} {unpack : Action Buffer α} {a : α}
    (hread : Buffer.Reads unpack message a) (hfit : message.length ≤ 10000) (hb : buffer.Valid) :
    ∃ unpacked, unpack.run (buffer.reset.fill message) = .ok a unpacked ∧ unpacked.Valid := by
  have hround := receiveRound_reads hread hfit hb
  rw [receiveRound_bytes] at hround
  exact ⟨_, hround⟩

end Buffers

namespace TickSender
variable (host : Endianness) (packer : Packer) (connection : Connection) {measurer : Measurer}
variable {buffer : Buffer}

theorem request_hasNext : request host packer connection ⟨measurer, buffer, .hasNext⟩ =
    .internal ⟨measurer, buffer, if measurer.hasNext then .reset else .finished⟩ := rfl

theorem request_pack {tick : TimeTick} {measurer' : Measurer} {packed : Buffer}
    (hnext : measurer.next = some (tick, measurer'))
    (hrun : (packer.serializeTimePoint host tick).run buffer = .ok () packed) :
    request host packer connection ⟨measurer, buffer, .pack⟩ =
      .internal ⟨measurer', packed, .send⟩ := by
  simp only [request, hnext, hrun]

variable {ticks : List TimeTick} {capacity k : Nat}

/-- A round of the loop, up to the call of Send. -/
theorem round {tick : TimeTick} (hget : ticks[k]? = some tick) (hb : buffer.Valid)
    (ts : List TimeTick) :
    ∃ packed, packed.Valid ∧
      packed.contents = Packer.fieldBytes host packer (.timePoint tick) ∧
      Silent (request host packer connection) ⟨⟨ticks, capacity, k⟩, buffer, .hasNext⟩ ts
        ⟨⟨ticks, capacity, k + 1⟩, packed, .send⟩ ts := by
  have hfit : (Packer.fieldBytes host packer (.timePoint tick)).length ≤ 10000 := by
    rw [Packer.fieldBytes_length]
    exact Nat.le_of_ble_eq_true rfl
  obtain ⟨packed, hrun, hvalid, hcontents⟩ :=
    exists_packed (Packer.serialize_writes host packer (.timePoint tick)) hfit hb
  obtain ⟨hlt, _⟩ := List.getElem?_eq_some_iff.mp hget
  have hhas : (⟨ticks, capacity, k⟩ : Measurer).hasNext = true :=
    bne_iff_ne.mpr (Nat.ne_of_lt hlt)
  have hnext : (⟨ticks, capacity, k⟩ : Measurer).next = some (tick, ⟨ticks, capacity, k + 1⟩) := by
    unfold Measurer.next
    rw [hget]
    rfl
  refine ⟨packed, hvalid, hcontents, ?_⟩
  refine .internal (request_hasNext ..) ?_
  rw [if_pos hhas]
  exact .internal rfl (.internal (request_pack _ _ _ hnext hrun) (.refl _ _))

theorem starts (ts : List TimeTick) : Silent (request host packer connection)
    ⟨measurer, buffer, .toFirst⟩ ts ⟨measurer.toFirst, buffer, .hasNext⟩ ts :=
  .internal rfl (.refl _ _)

/-- After the last tick the loop is left. -/
theorem ends (ts : List TimeTick) : Silent (request host packer connection)
    ⟨⟨ticks, capacity, ticks.length⟩, buffer, .hasNext⟩ ts
    ⟨⟨ticks, capacity, ticks.length⟩, buffer, .finished⟩ ts := by
  have hhas : (⟨ticks, capacity, ticks.length⟩ : Measurer).hasNext = false := bne_self_eq_false _
  refine .internal (request_hasNext ..) ?_
  rw [hhas]
  exact .refl _ _

end TickSender

namespace Producer
variable (host : Endianness) (packer packer' : Packer) {msgs : List StdString} {k : Nat}
variable {measurer : Measurer} {buffer : Buffer}

theorem request_ticks (p : Producer) (t : TickSender) :
    request host packer packer' (p.withTicks t) =
      (TickSender.request host packer' .measurerProducer t).map p.withTicks := rfl

theorem request_hasNext {generator : SimpleRoundGenerator} :
    request host packer packer' ⟨generator, measurer, buffer, .hasNext⟩ =
      .internal ⟨generator, measurer, buffer,
        if generator.hasNext then .tick else .ticks .toFirst⟩ := rfl

theorem request_pack {generator generator' : SimpleRoundGenerator} {msg : StdString}
    {packed : Buffer} (hnext : generator.next = some (msg, generator'))
    (hrun : (packer.serializeString host msg).run buffer = .ok () packed) :
    request host packer packer' ⟨generator, measurer, buffer, .pack⟩ =
      .internal ⟨generator', measurer, packed, .send⟩ := by
  simp only [request, hnext, hrun]

/-- A round of the loop over the chunks, up to the call of Send. -/
theorem round {msg : StdString} (hget : msgs[k]? = some msg)
    (hfit : 8 + msg.bytes.length ≤ 10000) (hroom : measurer.measurements.length < measurer.capacity)
    (hb : buffer.Valid) (now : TimeTick) (later : List TimeTick) :
    ∃ packed, packed.Valid ∧ packed.contents = Packer.fieldBytes host packer (.string msg) ∧
      Silent (request host packer packer') ⟨⟨msgs, k⟩, measurer, buffer, .hasNext⟩ (now :: later)
        ⟨⟨msgs, k + 1⟩, { measurer with measurements := measurer.measurements ++ [now] }, packed,
          .send⟩ later := by
  have hlength : (Packer.fieldBytes host packer (.string msg)).length ≤ 10000 := by
    rw [Packer.fieldBytes_length]
    exact hfit
  obtain ⟨packed, hrun, hvalid, hcontents⟩ :=
    exists_packed (Packer.serialize_writes host packer (.string msg)) hlength hb
  obtain ⟨hlt, _⟩ := List.getElem?_eq_some_iff.mp hget
  have hhas : (⟨msgs, k⟩ : SimpleRoundGenerator).hasNext = true := bne_iff_ne.mpr (Nat.ne_of_lt hlt)
  have hnext : (⟨msgs, k⟩ : SimpleRoundGenerator).next = some (msg, ⟨msgs, k + 1⟩) := by
    unfold SimpleRoundGenerator.next
    rw [hget]
    rfl
  have htick : measurer.tick now =
      { measurer with measurements := measurer.measurements ++ [now] } :=
    Measurer.emplaceBack_of_lt hroom now
  refine ⟨packed, hvalid, hcontents, ?_⟩
  refine .internal (request_hasNext ..) ?_
  rw [if_pos hhas, ← htick]
  exact .clock rfl (.internal rfl (.internal (request_pack _ _ _ hnext hrun) (.refl _ _)))

/-- After the last chunk the ticks are next. -/
theorem ends (hk : k = msgs.length) (ts : List TimeTick) : Silent (request host packer packer')
    ⟨⟨msgs, k⟩, measurer, buffer, .hasNext⟩ ts
    ⟨⟨msgs, k⟩, measurer, buffer, .ticks .toFirst⟩ ts := by
  have hhas : (⟨msgs, k⟩ : SimpleRoundGenerator).hasNext = false := by
    rw [hk]
    exact bne_self_eq_false _
  refine .internal (request_hasNext ..) ?_
  rw [hhas]
  exact .refl _ _

end Producer
namespace Consumer
variable (host : Endianness) (alloc : UInt64 → Bool) (packer packer' : Packer)
variable {measurer : Measurer} {buffer : Buffer} {messages : List StdString}

theorem request_ticks (c : Consumer) (t : TickSender) :
    request host alloc packer packer' (c.withTicks t) =
      (TickSender.request host packer' .measurerConsumer t).map c.withTicks := rfl

theorem request_isFull : request host alloc packer packer' ⟨measurer, buffer, messages, .isFull⟩ =
    .internal ⟨measurer, buffer, messages,
      if measurer.isFull then .ticks .toFirst else .reset⟩ := rfl

theorem request_unpack {msg : StdString} {unpacked : Buffer}
    (hrun : (packer.deserializeString host alloc).run buffer = .ok msg unpacked) :
    request host alloc packer packer' ⟨measurer, buffer, messages, .unpack⟩ =
      .internal ⟨measurer, unpacked, messages ++ [msg], .tick⟩ := by
  simp only [request, hrun]

/-- The loop comes to the call of Receive as long as the measurer is not full. -/
theorem waits (buffer : Buffer) (messages : List StdString)
    (hroom : measurer.measurements.length < measurer.capacity) (ts : List TimeTick) :
    Silent (request host alloc packer packer') ⟨measurer, buffer, messages, .isFull⟩ ts
      ⟨measurer, buffer.reset, messages, .receive⟩ ts := by
  have hfull : measurer.isFull = false := decide_eq_false (Nat.ne_of_lt hroom)
  refine .internal (request_isFull ..) ?_
  rw [hfull]
  exact .internal rfl (.refl _ _)

/-- What the loop does with a message that arrived. -/
theorem takes (messages : List StdString) {msg : StdString} (halloc : alloc msg.size = true)
    (hfit : 8 + msg.bytes.length ≤ 10000) (hroom : measurer.measurements.length < measurer.capacity)
    (hb : buffer.Valid) (now : TimeTick) (later : List TimeTick) :
    ∃ unpacked, unpacked.Valid ∧ Silent (request host alloc packer packer')
      ⟨measurer, buffer.reset.fill (Packer.fieldBytes host packer (.string msg)), messages, .unpack⟩
      (now :: later)
      ⟨{ measurer with measurements := measurer.measurements ++ [now] }, unpacked,
        messages ++ [msg], .isFull⟩ later := by
  have hlength : (Packer.fieldBytes host packer (.string msg)).length ≤ 10000 := by
    rw [Packer.fieldBytes_length]
    exact hfit
  obtain ⟨unpacked, hrun, hvalid⟩ := exists_unpacked
    (Packer.deserializeString_reads host packer alloc msg halloc) hlength hb
  have htick : measurer.tick now =
      { measurer with measurements := measurer.measurements ++ [now] } :=
    Measurer.emplaceBack_of_lt hroom now
  refine ⟨unpacked, hvalid, ?_⟩
  rw [← htick]
  exact .internal (request_unpack _ _ _ _ hrun) (.clock rfl (.refl _ _))

/-- A full measurer ends the loop, and the ticks are next. -/
theorem ends (hfull : measurer.isFull = true) (ts : List TimeTick) :
    Silent (request host alloc packer packer') ⟨measurer, buffer, messages, .isFull⟩ ts
      ⟨measurer, buffer, messages, .ticks .toFirst⟩ ts := by
  refine .internal (request_isFull ..) ?_
  rw [if_pos hfull]
  exact .refl _ _

end Consumer

namespace Worker
variable (host : Endianness) (packer : Packer) (connection : Connection) {measurer : Measurer}
variable {buffer : Buffer}

theorem request_isFull : request host packer connection ⟨measurer, buffer, .isFull⟩ =
    .internal ⟨measurer, buffer, if measurer.isFull then .finished else .reset⟩ := rfl

theorem request_unpack {tp : TimeTick} {unpacked : Buffer}
    (hrun : (packer.deserializeTimePoint host).run buffer = .ok tp unpacked) :
    request host packer connection ⟨measurer, buffer, .unpack⟩ =
      .internal ⟨measurer, unpacked, .pushBack tp⟩ := by
  simp only [request, hrun]

theorem waits (buffer : Buffer) (hroom : measurer.measurements.length < measurer.capacity)
    (ts : List TimeTick) :
    Silent (request host packer connection) ⟨measurer, buffer, .isFull⟩ ts
      ⟨measurer, buffer.reset, .receive⟩ ts := by
  have hfull : measurer.isFull = false := decide_eq_false (Nat.ne_of_lt hroom)
  refine .internal (request_isFull ..) ?_
  rw [hfull]
  exact .internal rfl (.refl _ _)

theorem takes (tp : TimeTick) (hroom : measurer.measurements.length < measurer.capacity)
    (hb : buffer.Valid) (ts : List TimeTick) :
    ∃ unpacked, unpacked.Valid ∧ Silent (request host packer connection)
      ⟨measurer, buffer.reset.fill (Packer.fieldBytes host packer (.timePoint tp)), .unpack⟩ ts
      ⟨{ measurer with measurements := measurer.measurements ++ [tp] }, unpacked, .isFull⟩ ts := by
  have hlength : (Packer.fieldBytes host packer (.timePoint tp)).length ≤ 10000 := by
    rw [Packer.fieldBytes_length]
    exact Nat.le_of_ble_eq_true rfl
  obtain ⟨unpacked, hrun, hvalid⟩ :=
    exists_unpacked (Packer.deserializeInt64_reads host packer tp) hlength hb
  have hpush : measurer.pushBack tp =
      { measurer with measurements := measurer.measurements ++ [tp] } :=
    Measurer.emplaceBack_of_lt hroom tp
  refine ⟨unpacked, hvalid, ?_⟩
  rw [← hpush]
  exact .internal (request_unpack _ _ _ hrun) (.internal rfl (.refl _ _))

theorem ends (hfull : measurer.isFull = true) (ts : List TimeTick) :
    Silent (request host packer connection) ⟨measurer, buffer, .isFull⟩ ts
      ⟨measurer, buffer, .finished⟩ ts := by
  refine .internal (request_isFull ..) ?_
  rw [if_pos hfull]
  exact .refl _ _

end Worker
end IpcChecker.Actors
