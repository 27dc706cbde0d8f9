import IpcChecker.Actors
import IpcChecker.Shared.Traces

/-!
# What the threads record

The ticks of a thread are its readings of the clock, and what arrived is never lost
again. The Consumer is always behind the Producer: a chunk was sent after a tick of the
Producer, and a tick of the Consumer comes after a chunk was received.
-/

namespace IpcChecker.Actors
open Shared
set_option autoImplicit false

section Threads
variable {host : Endianness} {packer packer' : Packer} {c connection : Connection} {b : Buffer}

theorem TickSender.next_measurements {t t' : TickSender}
    (h : (t.request host packer connection).Next t') :
    t'.measurer.measurements = t.measurer.measurements := by
  unfold TickSender.request at h
  split at h
  case h_4 =>
    split at h
    · cases h
      rfl
    · rename_i hnext
      obtain ⟨_, _, heq⟩ := Option.map_eq_some_iff.mp hnext
      cases heq
      split at h
      · cases h
        rfl
      · cases h
        rfl
  case h_5 =>
    obtain ⟨a, rfl⟩ := h
    cases a <;> rfl
  case h_6 => cases h
  case h_7 => cases h
  all_goals
    cases h
    rfl

theorem TickSender.internal_measurements {t t' : TickSender}
    (h : t.request host packer connection = .internal t') :
    t'.measurer.measurements = t.measurer.measurements :=
  next_measurements (h.symm ▸ rfl : (t.request host packer connection).Next t')

theorem TickSender.send_measurements {t : TickSender} {next : Except Failure Unit → TickSender}
    (h : t.request host packer connection = .send c b next) (a : Except Failure Unit) :
    (next a).measurer.measurements = t.measurer.measurements :=
  next_measurements (h.symm ▸ ⟨a, rfl⟩ : (t.request host packer connection).Next (next a))

theorem TickSender.never_ticks {t : TickSender} {next : TimeTick → TickSender} :
    t.request host packer connection ≠ .clock next := by
  intro h
  unfold TickSender.request at h
  split at h
  case h_4 =>
    split at h
    · cases h
    · split at h
      · cases h
      · cases h
  all_goals cases h

/-- A tick is taken whose chunk is not sent yet. -/
def Producer.unsent (p : Producer) : Nat :=
  match p.stage with
  | .reset => 1
  | .pack => 1
  | .send => 1
  | _ => 0

/-- A chunk is received whose tick is not taken yet. -/
def Consumer.unticked (c : Consumer) : Nat :=
  match c.stage with
  | .unpack => 1
  | .tick => 1
  | _ => 0

/-- What one move of the Producer does to its ticks and to the chunk at hand. -/
def Producer.Accounts (p : Producer) : ActorRequest Producer → Prop
  | .halt => True
  | .internal q => q.measurer.measurements = p.measurer.measurements ∧ q.unsent ≤ p.unsent
  | .clock next => ∀ now, (next now).measurer.measurements = p.measurer.measurements ++ [now] ∧
      (next now).unsent ≤ p.unsent + 1
  | .send c _ next => ∀ a, (next a).measurer.measurements = p.measurer.measurements ∧
      (next a).unsent ≤ p.unsent ∧
      (c = .consumerProducer → a = .ok () → (next a).unsent + 1 ≤ p.unsent)
  | .receive .. => False

theorem Producer.accounts (p : Producer) : p.Accounts (p.request host packer packer') := by
  obtain ⟨generator, measurer, buffer, stage⟩ := p
  cases stage with
  | toFirst => exact ⟨rfl, Nat.le_refl 0⟩
  | hasNext =>
    refine ⟨rfl, ?_⟩
    dsimp only [unsent]
    cases generator.hasNext <;> exact Nat.le_refl 0
  | tick => exact fun now => ⟨rfl, Nat.le_refl 1⟩
  | reset => exact ⟨rfl, Nat.le_refl 1⟩
  | pack =>
    unfold request
    dsimp only
    split
    · exact ⟨rfl, Nat.zero_le 1⟩
    · split
      · exact ⟨rfl, Nat.le_refl 1⟩
      · exact ⟨rfl, Nat.zero_le 1⟩
  | send =>
    rintro (e | ⟨⟩)
    · exact ⟨rfl, Nat.zero_le 1, nofun⟩
    · exact ⟨rfl, Nat.zero_le 1, fun _ _ => Nat.le_refl 1⟩
  | failed e => trivial
  | ticks stage =>
    change Accounts _ ((TickSender.request host packer' .measurerProducer
      ⟨measurer, buffer, stage⟩).map _)
    cases hreq : TickSender.request host packer' .measurerProducer ⟨measurer, buffer, stage⟩ with
    | halt => trivial
    | internal t =>
      exact ⟨TickSender.internal_measurements hreq, Nat.le_refl 0⟩
    | clock next => exact absurd hreq TickSender.never_ticks
    | send c b next =>
      intro a
      refine ⟨TickSender.send_measurements hreq a, Nat.le_refl 0, fun hc => ?_⟩
      cases (TickSender.sends hreq).symm.trans hc
    | receive c b next => exact absurd hreq TickSender.never_receives

/-- What one move of the Consumer does to its ticks and to the chunk at hand. -/
def Consumer.Accounts (c : Consumer) : ActorRequest Consumer → Prop
  | .halt => True
  | .internal q => q.measurer.measurements = c.measurer.measurements ∧ q.unticked ≤ c.unticked
  | .clock next => ∀ now, (next now).measurer.measurements = c.measurer.measurements ++ [now] ∧
      (next now).unticked + 1 ≤ c.unticked
  | .send _ _ next => ∀ a, (next a).measurer.measurements = c.measurer.measurements ∧
      (next a).unticked ≤ c.unticked
  | .receive _ _ next => (∀ b, (next (.ok b)).measurer.measurements = c.measurer.measurements ∧
        (next (.ok b)).unticked ≤ c.unticked + 1) ∧
      ∀ e, (next (.error e)).measurer.measurements = c.measurer.measurements ∧
        (next (.error e)).unticked ≤ c.unticked

section Consumer
variable {alloc : UInt64 → Bool}

theorem Consumer.accounts (c : Consumer) : c.Accounts (c.request host alloc packer packer') := by
  obtain ⟨measurer, buffer, messages, stage⟩ := c
  cases stage with
  | isFull =>
    refine ⟨rfl, ?_⟩
    dsimp only [unticked]
    cases measurer.isFull <;> exact Nat.le_refl 0
  | reset => exact ⟨rfl, Nat.le_refl 0⟩
  | receive => exact ⟨fun _ => ⟨rfl, Nat.le_refl 1⟩, fun _ => ⟨rfl, Nat.le_refl 0⟩⟩
  | unpack =>
    unfold request
    dsimp only
    split
    · exact ⟨rfl, Nat.le_refl 1⟩
    · exact ⟨rfl, Nat.zero_le 1⟩
  | tick => exact fun now => ⟨rfl, Nat.le_refl 1⟩
  | failed e => trivial
  | ticks stage =>
    change Accounts _ ((TickSender.request host packer' .measurerConsumer
      ⟨measurer, buffer, stage⟩).map _)
    cases hreq : TickSender.request host packer' .measurerConsumer ⟨measurer, buffer, stage⟩ with
    | halt => trivial
    | internal t => exact ⟨TickSender.internal_measurements hreq, Nat.le_refl 0⟩
    | clock next => exact absurd hreq TickSender.never_ticks
    | send c b next => exact fun a => ⟨TickSender.send_measurements hreq a, Nat.le_refl 0⟩
    | receive c b next => exact absurd hreq TickSender.never_receives

/-- Messages that were unpacked stay. -/
theorem Consumer.next_messages {c d : Consumer}
    (h : (c.request host alloc packer packer').Next d) : c.messages <+: d.messages := by
  unfold Consumer.request at h
  split at h
  case h_3 =>
    obtain ⟨a, rfl⟩ := h
    cases a <;> exact List.prefix_rfl
  case h_4 =>
    split at h
    · cases h
      exact List.prefix_append _ _
    · cases h
      exact List.prefix_rfl
  case h_5 =>
    obtain ⟨now, rfl⟩ := h
    exact List.prefix_rfl
  case h_6 => cases h
  case h_7 =>
    obtain ⟨_, _, rfl⟩ := Request.next_map h
    exact List.prefix_rfl
  all_goals
    cases h
    exact List.prefix_rfl

end Consumer

theorem Worker.never_ticks {w : Worker} {next : TimeTick → Worker} :
    w.request host packer connection ≠ .clock next := by
  intro h
  unfold Worker.request at h
  split at h
  case h_4 =>
    split at h
    · cases h
    · cases h
  all_goals cases h

/-- Ticks that arrived stay. -/
theorem Worker.next_measurements {w w' : Worker} (h : (w.request host packer connection).Next w') :
    w.measurer.measurements <+: w'.measurer.measurements := by
  unfold Worker.request at h
  split at h
  case h_3 =>
    obtain ⟨a, rfl⟩ := h
    cases a <;> exact List.prefix_rfl
  case h_4 =>
    split at h
    · cases h
      exact List.prefix_rfl
    · cases h
      exact List.prefix_rfl
  case h_5 =>
    cases h
    exact List.prefix_append _ _
  case h_6 => cases h
  case h_7 => cases h
  all_goals
    cases h
    exact List.prefix_rfl

end Threads
/-! The readings of the clock by the Producer and by the Consumer. -/

def producerReading : Thread × Option TimeTick → Option TimeTick
  | (.producer, reading) => reading
  | _ => none

def consumerReading : Thread × Option TimeTick → Option TimeTick
  | (.consumer, reading) => reading
  | _ => none

theorem reading_of_producerReading {e : Thread × Option TimeTick} {now : TimeTick}
    (h : producerReading e = some now) : e.2 = some now := by
  obtain ⟨i, r⟩ := e
  cases i with
  | producer => exact h
  | _ => cases h

theorem reading_of_consumerReading {e : Thread × Option TimeTick} {now : TimeTick}
    (h : consumerReading e = some now) : e.2 = some now := by
  obtain ⟨i, r⟩ := e
  cases i with
  | consumer => exact h
  | _ => cases h

/-- The Consumer's ticks, and the chunks on their way to it, are behind the Producer's ticks;
`pending` chunks lie in the connection. -/
structure Ahead (es : List (Thread × Option TimeTick)) (p : Producer) (c : Consumer)
    (pending : Nat) : Prop where
  producerTicks : p.measurer.measurements = es.filterMap producerReading
  consumerTicks : c.measurer.measurements = es.filterMap consumerReading
  behind : c.measurer.measurements.length + c.unticked + pending + p.unsent ≤
    p.measurer.measurements.length
  order : Precedes (fun e => (producerReading e).isSome) (fun e => (consumerReading e).isSome) es

namespace Ahead
variable {es : List (Thread × Option TimeTick)} {p p' : Producer} {c c' : Consumer}
variable {pending pending' : Nat}

theorem silent (h : Ahead es p c pending) (i : Thread)
    (hp : p'.measurer.measurements = p.measurer.measurements)
    (hc : c'.measurer.measurements = c.measurer.measurements)
    (hbehind : c'.unticked + pending' + p'.unsent ≤ c.unticked + pending + p.unsent) :
    Ahead (es ++ [(i, none)]) p' c' pending' := by
  have hsilent : producerReading (i, none) = none ∧ consumerReading (i, none) = none := by
    cases i <;> exact ⟨rfl, rfl⟩
  have hbefore := h.behind
  refine ⟨?_, ?_, ?_, h.order.append fun hlast => ?_⟩
  · rw [hp, h.producerTicks, List.filterMap_append, List.filterMap_cons_none hsilent.1]
    exact (List.append_nil _).symm
  · rw [hc, h.consumerTicks, List.filterMap_append, List.filterMap_cons_none hsilent.2]
    exact (List.append_nil _).symm
  · rw [hp, hc]
    omega
  · rw [hsilent.2] at hlast
    cases hlast

theorem producer_ticks (h : Ahead es p c pending) {now : TimeTick}
    (hp : p'.measurer.measurements = p.measurer.measurements ++ [now])
    (hunsent : p'.unsent ≤ p.unsent + 1) : Ahead (es ++ [(.producer, some now)]) p' c pending := by
  have hbefore := h.behind
  refine ⟨?_, ?_, ?_, h.order.append nofun⟩
  · rw [hp, h.producerTicks, List.filterMap_append]
    rfl
  · rw [h.consumerTicks, List.filterMap_append]
    exact (List.append_nil _).symm
  · rw [hp, List.length_append, List.length_singleton]
    omega

theorem consumer_ticks (h : Ahead es p c pending) {now : TimeTick}
    (hc : c'.measurer.measurements = c.measurer.measurements ++ [now])
    (hunticked : c'.unticked + 1 ≤ c.unticked) :
    Ahead (es ++ [(.consumer, some now)]) p c' pending := by
  have hbefore := h.behind
  refine ⟨?_, ?_, ?_, h.order.append fun _ => ?_⟩
  · rw [h.producerTicks, List.filterMap_append]
    exact (List.append_nil _).symm
  · rw [hc, h.consumerTicks, List.filterMap_append]
    rfl
  · rw [hc, List.length_append, List.length_singleton]
    omega
  · rw [← List.length_filterMap_eq_countP, ← List.length_filterMap_eq_countP, ← h.consumerTicks,
      ← h.producerTicks]
    omega

end Ahead

section Runs
variable {setup : Setup} {transport : Connection → Transport} {i : Thread} {c : Connection}
variable {s s' : Network.State setup.network (links transport)}
variable {p : setup.network.Local i} {ts : List TimeTick} {b : Buffer}
variable {es : List (Thread × Option TimeTick)}

/-- The chunks in the connection between Producer and Consumer. -/
def pending (ch : ∀ c, (links transport c).State) : List (List UInt8) := ch .consumerProducer

variable {ch : ∀ c, (links transport c).State} {x : (links transport c).State}

theorem pending_update_of_ne (h : c ≠ .consumerProducer) :
    pending (Function.update ch c x) = pending ch := Function.update_of_ne h.symm _ _

theorem pending_send {a : Except Failure Unit}
    (h : (links transport c).send (ch c) b = some (a, x)) :
    pending (Function.update ch c x) = pending ch ∨ c = .consumerProducer ∧ a = .ok () ∧
      (pending (Function.update ch c x)).length = (pending ch).length + 1 := by
  by_cases hc : c = .consumerProducer
  · subst hc
    unfold pending
    rw [Function.update_self]
    rcases Queue.send_cases _ h with ⟨_, _, rfl⟩ | ⟨_, _, rfl, rfl⟩
    · exact Or.inl rfl
    · exact Or.inr ⟨rfl, rfl, List.length_append⟩
  · exact Or.inl (pending_update_of_ne hc)

theorem pending_receive {a : Except Failure Buffer}
    (h : (links transport c).receive (ch c) b = some (a, x)) :
    (pending (Function.update ch c x)).length ≤ (pending ch).length ∧
      (c = .consumerProducer → ∀ b', a = .ok b' →
        (pending (Function.update ch c x)).length + 1 = (pending ch).length) := by
  by_cases hc : c = .consumerProducer
  · subst hc
    unfold pending
    rw [Function.update_self]
    rcases Queue.receive_cases _ h with ⟨b', rfl, hlength⟩ | ⟨e, rfl, rfl⟩
    · exact ⟨Nat.le.intro hlength.symm, fun _ _ _ => hlength.symm⟩
    · exact ⟨Nat.le_refl _, nofun⟩
  · rw [pending_update_of_ne hc]
    exact ⟨Nat.le_refl _, fun h => absurd h hc⟩

/-- The threads and the connection in a state of the network, as `Ahead` sees them. -/
def AheadAt (es : List (Thread × Option TimeTick))
    (s : Network.State setup.network (links transport)) : Prop :=
  Ahead es (producerOf s) (consumerOf s) (pending s.channel).length

theorem AheadAt.producer (h : AheadAt es s) {r : Option TimeTick}
    {p : setup.network.Local .producer}
    (hmove : Network.Move setup.network (links transport) (i := .producer) (s.process .producer)
      (s.readings .producer) s.channel r p ts ch) :
    AheadAt (es ++ [(.producer, r)]) (s.put .producer p ts ch) := by
  have hacc : (producerOf s).Accounts (setup.network.request .producer (s.process .producer)) :=
    Producer.accounts _
  have hp : producerOf (s.put .producer p ts ch) = p := Network.State.put_process
  have hc : consumerOf (s.put .producer p ts ch) = consumerOf s :=
    Network.State.put_process_of_ne nofun
  unfold AheadAt
  rw [hp, hc, Network.State.put_channel]
  cases hmove with
  | internal hreq =>
    rw [hreq] at hacc
    exact h.silent _ hacc.1 rfl (Nat.add_le_add_left hacc.2 _)
  | @clock next now _ hreq hts =>
    rw [hreq] at hacc
    exact h.producer_ticks (hacc now).1 (hacc now).2
  | @send c b next a x hreq hsend =>
    rw [hreq] at hacc
    obtain ⟨hsame, hunsent, hsent⟩ := hacc a
    refine h.silent _ hsame rfl ?_
    rcases pending_send hsend with hpending | ⟨hcp, hok, hpending⟩
    · rw [hpending]
      exact Nat.add_le_add_left hunsent _
    · have hone := hsent hcp hok
      rw [hpending]
      omega
  | receive hreq =>
    rw [hreq] at hacc
    exact hacc.elim

theorem AheadAt.consumer (h : AheadAt es s) {r : Option TimeTick}
    {c : setup.network.Local .consumer}
    (hmove : Network.Move setup.network (links transport) (i := .consumer) (s.process .consumer)
      (s.readings .consumer) s.channel r c ts ch) :
    AheadAt (es ++ [(.consumer, r)]) (s.put .consumer c ts ch) := by
  have hacc : (consumerOf s).Accounts (setup.network.request .consumer (s.process .consumer)) :=
    Consumer.accounts _
  have hp : producerOf (s.put .consumer c ts ch) = producerOf s :=
    Network.State.put_process_of_ne nofun
  have hc : consumerOf (s.put .consumer c ts ch) = c := Network.State.put_process
  unfold AheadAt
  rw [hp, hc, Network.State.put_channel]
  cases hmove with
  | internal hreq =>
    rw [hreq] at hacc
    exact h.silent _ rfl hacc.1 (Nat.add_le_add_right (Nat.add_le_add_right hacc.2 _) _)
  | @clock next now _ hreq hts =>
    rw [hreq] at hacc
    exact h.consumer_ticks (hacc now).1 (hacc now).2
  | @send c b next a x hreq hsend =>
    have hne : c ≠ .consumerProducer := by
      rintro rfl
      cases setup.network.sends hreq
    rw [hreq] at hacc
    rw [pending_update_of_ne hne]
    exact h.silent _ rfl (hacc a).1 (Nat.add_le_add_right (Nat.add_le_add_right (hacc a).2 _) _)
  | @receive c b next a x hreq hreceive =>
    rw [hreq] at hacc
    have hcp : c = .consumerProducer := by
      cases c with
      | consumerProducer => rfl
      | measurerProducer => cases setup.network.receives hreq
      | measurerConsumer => cases setup.network.receives hreq
    obtain ⟨hle, hone⟩ := pending_receive hreceive
    cases a with
    | ok b' =>
      have hreceived := hone hcp b' rfl
      have hunticked := (hacc.1 b').2
      exact h.silent _ rfl (hacc.1 b').1 (by omega)
    | error e =>
      have hunticked := (hacc.2 e).2
      exact h.silent _ rfl (hacc.2 e).1 (by omega)

theorem AheadAt.worker (h : AheadAt es s) (hproducer : Thread.producer ≠ i)
    (hconsumer : Thread.consumer ≠ i)
    (hclock : ∀ next, setup.network.request i (s.process i) ≠ .clock next)
    {r : Option TimeTick}
    (hmove : Network.Move setup.network (links transport) (s.process i) (s.readings i)
      s.channel r p ts ch) : AheadAt (es ++ [(i, r)]) (s.put i p ts ch) := by
  have hp : producerOf (s.put i p ts ch) = producerOf s :=
    Network.State.put_process_of_ne hproducer
  have hc : consumerOf (s.put i p ts ch) = consumerOf s :=
    Network.State.put_process_of_ne hconsumer
  unfold AheadAt
  rw [hp, hc, Network.State.put_channel]
  cases hmove with
  | internal hreq => exact h.silent _ rfl rfl (Nat.le_refl _)
  | clock hreq => exact absurd hreq (hclock _)
  | @send c b next a x hreq hsend =>
    have hclient := setup.network.sends hreq
    cases c with
    | consumerProducer => exact absurd hclient hproducer
    | measurerProducer => exact absurd hclient hproducer
    | measurerConsumer => exact absurd hclient hconsumer
  | @receive c b next a x hreq hreceive =>
    obtain ⟨hle, _⟩ := pending_receive hreceive
    exact h.silent _ rfl rfl (by omega)

theorem AheadAt.step (h : AheadAt es s) {e : Thread × Option TimeTick}
    (hstep : setup.network.Steps (links transport) s e s') : AheadAt (es ++ [e]) s' := by
  obtain ⟨i, r⟩ := e
  obtain ⟨p, ts, ch, hmove, rfl⟩ := hstep
  cases i with
  | producer => exact h.producer hmove
  | consumer => exact h.consumer hmove
  | consumerWorker =>
    exact h.worker (i := .consumerWorker) nofun nofun (fun _ => Worker.never_ticks) hmove
  | producerWorker =>
    exact h.worker (i := .producerWorker) nofun nofun (fun _ => Worker.never_ticks) hmove

theorem aheadAt_start (generator : SimpleRoundGenerator) (counts : Counts)
    (buffers : Thread → Buffer) (readings : Thread → List TimeTick) :
    AheadAt [] (setup.start (links transport) generator counts buffers readings fun _ => []) :=
  ⟨rfl, rfl, Nat.le_refl 0, .nil⟩

end Runs

section Growth
variable {setup : Setup} {link : Connection → Link Buffer Failure}
variable {s t : Network.State setup.network link} {es : List (Thread × Option TimeTick)}

theorem messages_grow (h : Run (setup.network.Steps link) s es t) :
    (consumerOf s).messages <+: (consumerOf t).messages := by
  refine Network.process_invariant (i := .consumer)
    (I := fun c : Consumer => (consumerOf s).messages <+: c.messages) List.prefix_rfl ?_ h
  intro c d hbefore hnext
  exact hbefore.trans (Consumer.next_messages hnext)

theorem consumerWorker_grows (h : Run (setup.network.Steps link) s es t) :
    (consumerWorkerOf s).measurer.measurements <+: (consumerWorkerOf t).measurer.measurements := by
  refine Network.process_invariant (i := .consumerWorker)
    (I := fun w : Worker => (consumerWorkerOf s).measurer.measurements <+: w.measurer.measurements)
    List.prefix_rfl ?_ h
  intro w w' hbefore hnext
  exact hbefore.trans (Worker.next_measurements hnext)

theorem producerWorker_grows (h : Run (setup.network.Steps link) s es t) :
    (producerWorkerOf s).measurer.measurements <+: (producerWorkerOf t).measurer.measurements := by
  refine Network.process_invariant (i := .producerWorker)
    (I := fun w : Worker => (producerWorkerOf s).measurer.measurements <+: w.measurer.measurements)
    List.prefix_rfl ?_ h
  intro w w' hbefore hnext
  exact hbefore.trans (Worker.next_measurements hnext)

end Growth
end IpcChecker.Actors
