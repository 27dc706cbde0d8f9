import IpcChecker.Shared.Network

/-!
# Schedules of a network over queues

Bounded queues of whole messages as channels, and rules to build one run of a network:
a process goes on by itself, a message passes from a sender to a receiver, and a
stream of messages does so one after the other through an empty queue.
-/

namespace Shared
set_option autoImplicit false

/-- How a queue takes a message from what a sender hands over, when it is full, and how it
gives one to a receiver. -/
structure Queue (β μ ε : Type) where
  contents : β → μ
  weight : μ → Nat
  capacity : Nat
  refusal : ε
  deliver : β → μ → Except ε β

namespace Queue
variable {β μ ε : Type} (queue : Queue β μ ε)

/-- A message that not even the empty queue could take is refused. -/
def send (pending : List μ) (b : β) : Option (Except ε Unit × List μ) :=
  if queue.capacity < queue.weight (queue.contents b) then some (.error queue.refusal, pending)
  else if Fifo.load queue.weight pending + queue.weight (queue.contents b) ≤ queue.capacity then
    some (.ok (), pending ++ [queue.contents b])
  else none

/-- A message that is not delivered stays. -/
def receive (pending : List μ) (b : β) : Option (Except ε β × List μ) :=
  match pending with
  | [] => none
  | message :: rest =>
    match queue.deliver b message with
    | .ok b' => some (.ok b', rest)
    | .error e => some (.error e, message :: rest)

theorem send_cases {pending pending' : List μ} {b : β} {r : Except ε Unit}
    (h : queue.send pending b = some (r, pending')) :
    queue.capacity < queue.weight (queue.contents b) ∧ r = .error queue.refusal ∧
        pending' = pending ∨
      ¬ queue.capacity < queue.weight (queue.contents b) ∧
        Fifo.load queue.weight pending + queue.weight (queue.contents b) ≤ queue.capacity ∧
        r = .ok () ∧ pending' = pending ++ [queue.contents b] := by
  unfold send at h
  split at h
  · rename_i hrefused
    cases h
    exact Or.inl ⟨hrefused, rfl, rfl⟩
  · rename_i hfits
    split at h
    · rename_i hroom
      cases h
      exact Or.inr ⟨hfits, hroom, rfl, rfl⟩
    · cases h

theorem send_refused {pending : List μ} {b : β}
    (h : queue.capacity < queue.weight (queue.contents b)) :
    queue.send pending b = some (.error queue.refusal, pending) := if_pos h

theorem send_taken {pending : List μ} {b : β}
    (h : Fifo.load queue.weight pending + queue.weight (queue.contents b) ≤ queue.capacity) :
    queue.send pending b = some (.ok (), pending ++ [queue.contents b]) := by
  unfold send
  rw [if_neg (by omega), if_pos h]

theorem receive_delivered {message : μ} {rest : List μ} {b b' : β}
    (h : queue.deliver b message = .ok b') :
    queue.receive (message :: rest) b = some (.ok b', rest) := by
  simp only [receive, h]

theorem receive_failed {message : μ} {rest : List μ} {b : β} {e : ε}
    (h : queue.deliver b message = .error e) :
    queue.receive (message :: rest) b = some (.error e, message :: rest) := by
  simp only [receive, h]

theorem receive_cases {pending pending' : List μ} {b : β} {r : Except ε β}
    (h : queue.receive pending b = some (r, pending')) :
    (∃ b', r = .ok b' ∧ pending.length = pending'.length + 1) ∨
      ∃ e, r = .error e ∧ pending' = pending := by
  cases pending with
  | nil => cases h
  | cons message rest =>
    cases hdeliver : queue.deliver b message with
    | ok b' =>
      rw [queue.receive_delivered hdeliver] at h
      cases h
      exact Or.inl ⟨b', rfl, rfl⟩
    | error e =>
      rw [queue.receive_failed hdeliver] at h
      cases h
      exact Or.inr ⟨e, rfl, rfl⟩

/-- The sender only needs room, and the receiver only looks at the front. -/
theorem commutes {x y z : List μ} {b b' : β} {r : Except ε Unit} {r' : Except ε β}
    (hsend : queue.send x b = some (r, y)) (hreceive : queue.receive x b' = some (r', z)) :
    ∃ w, queue.send z b = some (r, w) ∧ queue.receive y b' = some (r', w) := by
  cases x with
  | nil => cases hreceive
  | cons message rest =>
    rcases queue.send_cases hsend with ⟨hrefused, rfl, rfl⟩ | ⟨_, hroom, rfl, rfl⟩
    · exact ⟨z, queue.send_refused hrefused, hreceive⟩
    · rw [Fifo.load_cons] at hroom
      cases hdeliver : queue.deliver b' message with
      | ok b'' =>
        rw [queue.receive_delivered hdeliver] at hreceive
        cases hreceive
        exact ⟨_, queue.send_taken (by omega), queue.receive_delivered hdeliver⟩
      | error e =>
        rw [queue.receive_failed hdeliver] at hreceive
        cases hreceive
        exact ⟨_, queue.send_taken (by rwa [Fifo.load_cons]), queue.receive_failed hdeliver⟩

abbrev channel : Channel β ε where
  State := List μ
  send := queue.send
  receive := queue.receive
  commutes := queue.commutes

end Queue

section Silent
variable {κ β ε τ σ ρ : Type} {request : σ → Request κ β ε τ σ}

/-- By itself a process gets from one state to another, with the readings left. -/
inductive Silent (request : σ → Request κ β ε τ σ) : σ → List τ → σ → List τ → Prop where
  | refl (p : σ) (ts : List τ) : Silent request p ts p ts
  | internal {p q r : σ} {ts us : List τ} : request p = .internal q → Silent request q ts r us →
      Silent request p ts r us
  | clock {p r : σ} {next : τ → σ} {now : τ} {ts us : List τ} : request p = .clock next →
      Silent request (next now) ts r us → Silent request p (now :: ts) r us

namespace Silent

theorem trans {p q r : σ} {ts us vs : List τ} (h : Silent request p ts q us)
    (h' : Silent request q us r vs) : Silent request p ts r vs := by
  induction h with
  | refl => exact h'
  | internal hreq _ ih => exact .internal hreq (ih h')
  | clock hreq _ ih => exact .clock hreq (ih h')

/-- A part of a process goes on by itself, and so does the process. -/
theorem map {request' : ρ → Request κ β ε τ ρ} {f : σ → ρ}
    (hpart : ∀ t, request' (f t) = (request t).map f) {p q : σ} {ts us : List τ}
    (h : Silent request p ts q us) : Silent request' (f p) ts (f q) us := by
  induction h with
  | refl => exact .refl _ _
  | @internal p q r ts us hreq _ ih =>
    have hreq' : request' (f p) = .internal (f q) := by
      rw [hpart, hreq]
      rfl
    exact .internal hreq' ih
  | @clock p r next now ts us hreq _ ih =>
    have hreq' : request' (f p) = .clock fun now => f (next now) := by
      rw [hpart, hreq]
      rfl
    exact .clock hreq' ih

end Silent
end Silent

namespace Network
variable {ι κ β ε μ τ : Type} {N : Network ι κ β ε τ}
variable [DecidableEq ι] [DecidableEq κ]

/-- The states that some run leads to. -/
def Leads (N : Network ι κ β ε τ) (link : κ → Link β ε) (s s' : State N link) : Prop :=
  ∃ es, Run (N.Steps link) s es s'

theorem Leads.trans {link : κ → Link β ε} {s t u : State N link} (h : N.Leads link s t)
    (h' : N.Leads link t u) : N.Leads link s u := by
  obtain ⟨es, hes⟩ := h
  obtain ⟨fs, hfs⟩ := h'
  exact ⟨es ++ fs, hes.trans hfs⟩

section Rules
variable {link : κ → Link β ε} {s : State N link} {i : ι} {c : κ} {b : β}

theorem leads_send {next : Except ε Unit → N.Local i} {a : Except ε Unit} {x : (link c).State}
    (hreq : N.request i (s.process i) = .send c b next)
    (hsend : (link c).send (s.channel c) b = some (a, x)) :
    N.Leads link s (s.put i (next a) (s.readings i) (Function.update s.channel c x)) :=
  ⟨[(i, none)], Run.single ⟨_, _, _, .send hreq hsend, rfl⟩⟩

theorem leads_receive {next : Except ε β → N.Local i} {a : Except ε β} {x : (link c).State}
    (hreq : N.request i (s.process i) = .receive c b next)
    (hreceive : (link c).receive (s.channel c) b = some (a, x)) :
    N.Leads link s (s.put i (next a) (s.readings i) (Function.update s.channel c x)) :=
  ⟨[(i, none)], Run.single ⟨_, _, _, .receive hreq hreceive, rfl⟩⟩

end Rules

theorem leads_silent {link : κ → Link β ε} {i : ι} {p q : N.Local i} {ts us : List τ}
    (h : Silent (N.request i) p ts q us) :
    ∀ {s : State N link}, s.process i = p → s.readings i = ts →
      N.Leads link s (s.put i q us s.channel) := by
  induction h with
  | refl p ts =>
    rintro s rfl rfl
    rw [State.put_self]
    exact ⟨[], .start⟩
  | @internal p q r ts us hreq _ ih =>
    rintro s rfl rfl
    have hstep : N.Steps link s (i, none) (s.put i q (s.readings i) s.channel) :=
      ⟨_, _, _, .internal hreq, rfl⟩
    have hrest := ih (s := s.put i q (s.readings i) s.channel) (by simp) (by simp)
    simp only [State.put_put, State.put_channel] at hrest
    exact Leads.trans ⟨_, Run.single hstep⟩ hrest
  | @clock p r next now ts us hreq _ ih =>
    rintro s rfl hts
    have hstep : N.Steps link s (i, some now) (s.put i (next now) ts s.channel) :=
      ⟨_, _, _, .clock hreq hts, rfl⟩
    have hrest := ih (s := s.put i (next now) ts s.channel) (by simp) (by simp)
    simp only [State.put_put, State.put_channel] at hrest
    exact Leads.trans ⟨_, Run.single hstep⟩ hrest

/-- Two processes go on, each by itself. -/
theorem Leads.both {link : κ → Link β ε} {s u : State N link} {i j : ι} {p p' : N.Local i}
    {q q' : N.Local j} {ts ts' us us' : List τ} {ch : ∀ c, (link c).State} (hij : i ≠ j)
    (h : N.Leads link u ((s.put i p ts ch).put j q us ch))
    (hp : Silent (N.request i) p ts p' ts') (hq : Silent (N.request j) q us q' us') :
    N.Leads link u ((s.put i p' ts' ch).put j q' us' ch) := by
  let s₁ := (s.put i p ts ch).put j q us ch
  let s₂ := (s.put i p' ts' ch).put j q us ch
  have hfirst : N.Leads link s₁ s₂ := by
    have hgo := leads_silent hp (s := s₁) (by rw [State.put_process_of_ne hij, State.put_process])
      (by rw [State.put_readings_of_ne hij, State.put_readings])
    have hput : s₁.put i p' ts' s₁.channel = s₂ := State.put_put_of_ne hij
    rwa [hput] at hgo
  have hsecond := leads_silent hq (s := s₂) State.put_process State.put_readings
  rw [State.put_put] at hsecond
  exact (h.trans hfirst).trans hsecond

section Streams
variable {queue : κ → Queue β μ ε} {i j : ι} {c : κ} {p p' : N.Local i} {ts ts' : List τ}
variable {r r' : N.Local j} {us us' : List τ}

/-- Both sides come to a call on the channel, the message goes over, and both go on. -/
inductive Passes (N : Network ι κ β ε τ) (queue : κ → Queue β μ ε) (c : κ) {i j : ι} :
    N.Local i → List τ → N.Local j → List τ → N.Local i → List τ → N.Local j → List τ → Prop where
  | intro {p p₁ p' : N.Local i} {ts ts₁ ts' : List τ} {r r₁ r' : N.Local j} {us us₁ us' : List τ}
    {b b₁ b₂ : β} {next : Except ε Unit → N.Local i} {next₁ : Except ε β → N.Local j}
    (before : Silent (N.request i) p ts p₁ ts₁) (send : N.request i p₁ = .send c b next)
    (waiting : Silent (N.request j) r us r₁ us₁) (receive : N.request j r₁ = .receive c b₁ next₁)
    (fits : (queue c).weight ((queue c).contents b) ≤ (queue c).capacity)
    (delivered : (queue c).deliver b₁ ((queue c).contents b) = .ok b₂)
    (sent : Silent (N.request i) (next (.ok ())) ts₁ p' ts')
    (received : Silent (N.request j) (next₁ (.ok b₂)) us₁ r' us') :
    Passes N queue c p ts r us p' ts' r' us'

variable {s : State N fun c => (queue c).channel.toLink}

/-- A message goes through the empty queue. -/
theorem leads_handover {b b₁ b₂ : β} {next : Except ε Unit → N.Local i}
    {next₁ : Except ε β → N.Local j} (hij : i ≠ j)
    (send : N.request i (s.process i) = .send c b next)
    (receive : N.request j (s.process j) = .receive c b₁ next₁)
    (fits : (queue c).weight ((queue c).contents b) ≤ (queue c).capacity)
    (delivered : (queue c).deliver b₁ ((queue c).contents b) = .ok b₂)
    (hempty : s.channel c = ([] : List μ)) :
    N.Leads (fun c => (queue c).channel.toLink) s
      ((s.put i (next (.ok ())) (s.readings i) s.channel).put j (next₁ (.ok b₂)) (s.readings j)
        s.channel) := by
  have hji : j ≠ i := Ne.symm hij
  have hsend : (queue c).channel.send (s.channel c) b =
      some (.ok (), [(queue c).contents b]) := by
    rw [hempty]
    exact (queue c).send_taken (by simpa using fits)
  have hreceive : (queue c).channel.receive [(queue c).contents b] b₁ =
      some (.ok b₂, ([] : List μ)) := (queue c).receive_delivered delivered
  let full : ∀ c, (queue c).channel.State := Function.update s.channel c [(queue c).contents b]
  have hfull : full c = [(queue c).contents b] := Function.update_self _ _ _
  have hafter : Function.update full c ([] : List μ) = s.channel := by
    rw [Function.update_idem, ← hempty, Function.update_eq_self]
  refine (leads_send send hsend).trans ?_
  have hlast : N.Leads (fun c => (queue c).channel.toLink)
      (s.put i (next (.ok ())) (s.readings i) full) _ :=
    leads_receive (by rwa [State.put_process_of_ne hji])
      (by rw [State.put_channel, hfull]; exact hreceive)
  rw [State.put_readings_of_ne hji, State.put_channel, hafter] at hlast
  exact hlast

theorem Passes.leads (h : Passes N queue c p ts r us p' ts' r' us') (hij : i ≠ j)
    (hp : s.process i = p)
    (hts : s.readings i = ts) (hr : s.process j = r) (hus : s.readings j = us)
    (hempty : s.channel c = ([] : List μ)) :
    N.Leads (fun c => (queue c).channel.toLink) s
      ((s.put i p' ts' s.channel).put j r' us' s.channel) := by
  cases h with
  | @intro p₁ _ _ ts₁ _ _ r₁ _ _ us₁ _ b b₁ b₂ next next₁ before send waiting receive fits
      delivered sent received =>
    have hji : j ≠ i := Ne.symm hij
    let s₁ := s.put i p₁ ts₁ s.channel
    let s₂ := s₁.put j r₁ us₁ s.channel
    let s₃ := (s.put i (next (.ok ())) ts₁ s.channel).put j (next₁ (.ok b₂)) us₁ s.channel
    have h₁ : N.Leads _ s s₁ := leads_silent before hp hts
    have h₂ : N.Leads _ s₁ s₂ := leads_silent waiting ((State.put_process_of_ne hji).trans hr)
      ((State.put_readings_of_ne hji).trans hus)
    have h₃ : N.Leads _ s₂ s₃ := by
      have hsend : N.request i (s₂.process i) = .send c b next := by
        rwa [State.put_process_of_ne hij, State.put_process]
      have hreceive : N.request j (s₂.process j) = .receive c b₁ next₁ := by
        rwa [State.put_process]
      have hhand := leads_handover hij hsend hreceive fits delivered hempty
      have hput : s₂.put i (next (.ok ())) ts₁ s₂.channel =
        (s.put i (next (.ok ())) ts₁ s.channel).put j r₁ us₁ s.channel := State.put_put_of_ne hij
      rwa [State.put_readings_of_ne hij, State.put_readings, State.put_readings, hput,
        State.put_put] at hhand
    exact ((h₁.trans h₂).trans h₃).both hij sent received

/-- Rounds that each pass a message on make a stream. -/
theorem leads_stream {A : Nat → N.Local i → List τ → Prop} {B : Nat → N.Local j → List τ → Prop}
    {n : Nat} (hij : i ≠ j) (hround : ∀ k < n, ∀ {p ts r us}, A k p ts → B k r us →
      ∃ p' ts' r' us', Passes N queue c p ts r us p' ts' r' us' ∧ A (k + 1) p' ts' ∧
        B (k + 1) r' us')
    (hA : A 0 (s.process i) (s.readings i)) (hB : B 0 (s.process j) (s.readings j))
    (hempty : s.channel c = ([] : List μ)) :
    ∃ p ts r us, A n p ts ∧ B n r us ∧ N.Leads (fun c => (queue c).channel.toLink) s
      ((s.put i p ts s.channel).put j r us s.channel) := by
  induction n with
  | zero =>
    refine ⟨_, _, _, _, hA, hB, [], ?_⟩
    rw [State.put_self, State.put_self]
    exact .start
  | succ n ih =>
    obtain ⟨p, ts, r, us, hA', hB', hleads⟩ := ih fun k hk => hround k (Nat.lt_succ_of_lt hk)
    obtain ⟨p', ts', r', us', hpasses, hA'', hB''⟩ := hround n (Nat.lt_succ_self n) hA' hB'
    refine ⟨p', ts', r', us', hA'', hB'', hleads.trans ?_⟩
    have hlast := hpasses.leads (s := (s.put i p ts s.channel).put j r us s.channel) hij
      (by rw [State.put_process_of_ne hij, State.put_process])
      (by rw [State.put_readings_of_ne hij, State.put_readings]) State.put_process
      State.put_readings hempty
    have hput : ((s.put i p ts s.channel).put j r us s.channel).put i p' ts' s.channel =
      (s.put i p' ts' s.channel).put j r us s.channel := State.put_put_of_ne hij
    rw [State.put_channel, hput, State.put_put] at hlast
    exact hlast

end Streams
end Network
end Shared
