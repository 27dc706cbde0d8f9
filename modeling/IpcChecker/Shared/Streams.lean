import IpcChecker.Shared.Schedules

/-!
# Streams that are cut short

A receiver that stops before the sender does, a sender without room for its messages, and
the states in which a network has come to rest though not all processes have halted.
-/

namespace Shared.Network
set_option autoImplicit false

variable {ι κ β ε μ τ : Type} {N : Network ι κ β ε τ} {link : κ → Link β ε}

/-- A process that has halted, or whose call on a channel has to wait. -/
inductive Idle (link : κ → Link β ε) (ch : ∀ c, (link c).State) {σ : Type} :
    Request κ β ε τ σ → Prop where
  | halt : Idle link ch .halt
  | send {c : κ} {b : β} {next : Except ε Unit → σ} : (link c).send (ch c) b = none →
      Idle link ch (.send c b next)
  | receive {c : κ} {b : β} {next : Except ε β → σ} : (link c).receive (ch c) b = none →
      Idle link ch (.receive c b next)

/-- The call of a process on this channel, which is in this state, has to wait. -/
inductive WaitsOn (link : κ → Link β ε) (c : κ) (x : (link c).State) {σ : Type} :
    Request κ β ε τ σ → Prop where
  | send {b : β} {next : Except ε Unit → σ} : (link c).send x b = none →
      WaitsOn link c x (.send c b next)
  | receive {b : β} {next : Except ε β → σ} : (link c).receive x b = none →
      WaitsOn link c x (.receive c b next)

section Waits
variable {c : κ} {ch : ∀ c, (link c).State} {σ : Type} {r : Request κ β ε τ σ}

theorem WaitsOn.idle (h : WaitsOn link c (ch c) r) : Idle link ch r := by
  cases h with
  | send hwaits => exact .send hwaits
  | receive hwaits => exact .receive hwaits

theorem WaitsOn.not_halt {x : (link c).State} (h : WaitsOn link c x r) : r ≠ .halt := by
  rintro rfl
  cases h

end Waits

variable [DecidableEq ι] [DecidableEq κ]

theorem ended_of_idle {s : State N link}
    (h : ∀ i, Idle link s.channel (N.request i (s.process i))) : Ended (N.Steps link) s := by
  rintro ⟨i, r⟩ t ⟨p, ts, ch, hmove, rfl⟩
  have hidle := h i
  cases hmove with
  | internal hreq =>
    rw [hreq] at hidle
    cases hidle
  | clock hreq =>
    rw [hreq] at hidle
    cases hidle
  | send hreq hsend =>
    rw [hreq] at hidle
    cases hidle with
    | send hwaits => cases hwaits.symm.trans hsend
  | receive hreq hreceive =>
    rw [hreq] at hidle
    cases hidle with
    | receive hwaits => cases hwaits.symm.trans hreceive

variable {queue : κ → Queue β μ ε} {i j : ι} {c : κ} {p p' : N.Local i} {ts ts' : List τ}
variable {r r' : N.Local j} {us us' : List τ} {s : State N fun c => (queue c).channel.toLink}

/-! A sender that may have more to say than its receiver listens to. -/

/-- A sender gets a message to a call on the channel, and goes on once it is taken. -/
inductive Gives (N : Network ι κ β ε τ) (queue : κ → Queue β μ ε) (c : κ) {i : ι} :
    N.Local i → List τ → μ → N.Local i → List τ → Prop where
  | intro {p p₁ p' : N.Local i} {ts ts₁ ts' : List τ} {b : β}
    {next : Except ε Unit → N.Local i}
    (before : Silent (N.request i) p ts p₁ ts₁) (send : N.request i p₁ = .send c b next)
    (sent : Silent (N.request i) (next (.ok ())) ts₁ p' ts') :
    Gives N queue c p ts ((queue c).contents b) p' ts'

/-- A receiver waits for a message, and goes on with it. -/
inductive Takes (N : Network ι κ β ε τ) (queue : κ → Queue β μ ε) (c : κ) {j : ι} :
    N.Local j → List τ → μ → N.Local j → List τ → Prop where
  | intro {r r₁ r' : N.Local j} {us us₁ us' : List τ} {b b' : β} {message : μ}
    {next : Except ε β → N.Local j}
    (waiting : Silent (N.request j) r us r₁ us₁) (receive : N.request j r₁ = .receive c b next)
    (delivered : (queue c).deliver b message = .ok b')
    (received : Silent (N.request j) (next (.ok b')) us₁ r' us') :
    Takes N queue c r us message r' us'

omit [DecidableEq ι] [DecidableEq κ] in
theorem Gives.passes {message : μ} (h : Gives N queue c p ts message p' ts')
    (h' : Takes N queue c r us message r' us')
    (hfits : (queue c).weight message ≤ (queue c).capacity) :
    Passes N queue c p ts r us p' ts' r' us' := by
  cases h with
  | intro before send sent =>
    cases h' with
    | intro waiting receive delivered received =>
      exact .intro before send waiting receive hfits delivered sent received

theorem Gives.leads {message : μ} {pending : List μ} (h : Gives N queue c p ts message p' ts')
    (hp : s.process i = p) (hts : s.readings i = ts) (hpending : s.channel c = pending)
    (hroom : Fifo.load (queue c).weight pending + (queue c).weight message ≤ (queue c).capacity) :
    N.Leads (fun c => (queue c).channel.toLink) s
      (s.put i p' ts' (Function.update s.channel c (pending ++ [message]))) := by
  cases h with
  | @intro p₁ _ _ ts₁ _ b next before send sent =>
    let s₁ := s.put i p₁ ts₁ s.channel
    have h₁ : N.Leads _ s s₁ := leads_silent before hp hts
    have hsend : (queue c).channel.send (s₁.channel c) b =
        some (.ok (), pending ++ [(queue c).contents b]) := by
      rw [State.put_channel, hpending]
      exact (queue c).send_taken hroom
    have h₂ := leads_send (s := s₁) (by rwa [State.put_process]) hsend
    rw [State.put_readings, State.put_put, State.put_channel] at h₂
    have h₃ := leads_silent sent (s := s.put i (next (.ok ())) ts₁
      (Function.update s.channel c (pending ++ [(queue c).contents b])))
      State.put_process State.put_readings
    rw [State.put_put, State.put_channel] at h₃
    exact (h₁.trans h₂).trans h₃

/-- What becomes of a sender of these messages that is not listened to: it is done, or waits for
room in the channel. -/
inductive Settled (N : Network ι κ β ε τ) (queue : κ → Queue β μ ε) (c : κ) {i : ι}
    (done : N.Local i → List τ → Prop) (messages : List μ) (p : N.Local i) (ts : List τ)
    (pending : List μ) : Prop where
  | sent : done p ts → pending = messages →
      Fifo.load (queue c).weight messages ≤ (queue c).capacity →
      Settled N queue c done messages p ts pending
  | waits : (queue c).capacity < Fifo.load (queue c).weight messages →
      WaitsOn (fun c => (queue c).channel.toLink) c pending (N.request i p) →
      Settled N queue c done messages p ts pending

/-- Without a receiver a sender goes on until everything is sent, or there is no more room. -/
theorem leads_flood {A : Nat → N.Local i → List τ → Prop} {messages : List μ}
    (hgives : ∀ k message, messages[k]? = some message → ∀ {p ts}, A k p ts →
      ∃ p' ts', Gives N queue c p ts message p' ts' ∧ A (k + 1) p' ts')
    (hfits : ∀ message ∈ messages, (queue c).weight message ≤ (queue c).capacity)
    (hA : A 0 (s.process i) (s.readings i)) (hempty : s.channel c = ([] : List μ)) :
    ∃ p ts pending, N.Leads (fun c => (queue c).channel.toLink) s
        (s.put i p ts (Function.update s.channel c pending)) ∧
      Settled N queue c (A messages.length) messages p ts pending := by
  induction messages using List.reverseRecOn with
  | nil =>
    refine ⟨_, _, [], ?_, .sent hA rfl (Nat.zero_le _)⟩
    have hsame : Function.update s.channel c ([] : List μ) = s.channel := by
      rw [← hempty, Function.update_eq_self]
    rw [hsame, State.put_self]
    exact ⟨[], .start⟩
  | append_singleton messages message ih =>
    have hlast : (messages ++ [message])[messages.length]? = some message := by simp
    obtain ⟨p, ts, pending, hleads, hsettled⟩ := ih
      (fun k m hk => hgives k m ((List.getElem?_append_left
        (List.getElem?_eq_some_iff.mp hk).1).trans hk))
      (fun m hm => hfits m (List.mem_append_left _ hm))
    have hload : Fifo.load (queue c).weight (messages ++ [message]) =
        Fifo.load (queue c).weight messages + (queue c).weight message := by
      rw [Fifo.load_append, Fifo.load_cons, Fifo.load_nil, Nat.add_zero]
    rcases hsettled with ⟨hA', rfl, hroom⟩ | ⟨hover, hwaits⟩
    · obtain ⟨p', ts', hgive, hA''⟩ := hgives _ _ hlast hA'
      let s₁ := s.put i p ts (Function.update s.channel c pending)
      have hpending : s₁.channel c = pending := Function.update_self _ _ _
      by_cases hmore : Fifo.load (queue c).weight pending + (queue c).weight message ≤
          (queue c).capacity
      · have hlead := hgive.leads (s := s₁) State.put_process State.put_readings hpending hmore
        rw [State.put_put, State.put_channel, Function.update_idem] at hlead
        refine ⟨p', ts', _, hleads.trans hlead, .sent ?_ rfl (hload.trans_le hmore)⟩
        rwa [List.length_append]
      · cases hgive with
        | @intro p₁ _ _ ts₁ _ b next before send sent =>
          have hlead := leads_silent before (s := s₁) State.put_process State.put_readings
          rw [State.put_put, State.put_channel] at hlead
          have hover := hload ▸ Nat.lt_of_not_le hmore
          refine ⟨p₁, ts₁, _, hleads.trans hlead, .waits hover ?_⟩
          have hone := hfits _ (List.mem_append_right _ (List.mem_singleton_self _))
          have hwaits : (queue c).send pending b = none := by
            unfold Queue.send
            rw [if_neg (Nat.not_lt.mpr hone), if_neg hmore]
          rw [send]
          exact .send hwaits
    · have hmore := Nat.lt_of_lt_of_le hover (Nat.le_add_right _ ((queue c).weight message))
      exact ⟨p, ts, pending, hleads, .waits (hload ▸ hmore) hwaits⟩

/-- A stream to a receiver that takes `wanted` messages: what comes after them stays in the channel,
and the sender stays with it where there is no room. -/
theorem leads_conversation {A : Nat → N.Local i → List τ → Prop}
    {B : Nat → N.Local j → List τ → Prop} {messages : List μ} {wanted : Nat} (hij : i ≠ j)
    (hgives : ∀ k message, messages[k]? = some message → ∀ {p ts}, A k p ts →
      ∃ p' ts', Gives N queue c p ts message p' ts' ∧ A (k + 1) p' ts')
    (htakes : ∀ k message, k < wanted → messages[k]? = some message → ∀ {r us}, B k r us →
      ∃ r' us', Takes N queue c r us message r' us' ∧ B (k + 1) r' us')
    (hfits : ∀ message ∈ messages, (queue c).weight message ≤ (queue c).capacity)
    (hA : A 0 (s.process i) (s.readings i)) (hB : B 0 (s.process j) (s.readings j))
    (hempty : s.channel c = ([] : List μ)) :
    ∃ p ts r us pending, N.Leads (fun c => (queue c).channel.toLink) s
        ((s.put i p ts (Function.update s.channel c pending)).put j r us
          (Function.update s.channel c pending)) ∧
      B (min messages.length wanted) r us ∧
      Settled N queue c (A messages.length) (messages.drop wanted) p ts pending := by
  have hdrop : messages.drop (min messages.length wanted) = messages.drop wanted := by
    rcases Nat.le_total messages.length wanted with hle | hle
    · rw [Nat.min_eq_left hle, List.drop_length, List.drop_eq_nil_of_le hle]
    · rw [Nat.min_eq_right hle]
  obtain ⟨p, ts, r, us, hA', hB', hstream⟩ :=
    leads_stream (n := min messages.length wanted) hij (fun k hk {p ts r us} hAk hBk => by
      obtain ⟨hlength, hwanted⟩ := Nat.lt_min.mp hk
      have hget : messages[k]? = some messages[k] := List.getElem?_eq_getElem hlength
      obtain ⟨p', ts', hgive, hA'⟩ := hgives k _ hget hAk
      obtain ⟨r', us', htake, hB'⟩ := htakes k _ hwanted hget hBk
      exact ⟨p', ts', r', us', hgive.passes htake (hfits _ (List.getElem_mem hlength)), hA', hB'⟩)
      hA hB hempty
  let s₁ := (s.put i p ts s.channel).put j r us s.channel
  obtain ⟨p', ts', pending, hflood, hsettled⟩ :=
    leads_flood (s := s₁) (A := fun k => A (min messages.length wanted + k))
      (fun k message (hget : (messages.drop (min messages.length wanted))[k]? = some message)
        {p ts} hAk => hgives _ message (by rwa [List.getElem?_drop] at hget) hAk)
      (fun message hmem => hfits message (List.mem_of_mem_drop hmem))
      (by rwa [State.put_process_of_ne hij, State.put_process, State.put_readings_of_ne hij,
        State.put_readings]) hempty
  have hput : s₁.put i p' ts' (Function.update s₁.channel c pending) =
      (s.put i p' ts' (Function.update s.channel c pending)).put j r us
        (Function.update s.channel c pending) := by
    have hcomm : s₁ = (s.put j r us s.channel).put i p ts s.channel := State.put_comm hij
    rw [hcomm, State.put_put]
    exact State.put_comm hij.symm
  have hall : min messages.length wanted +
      (messages.drop (min messages.length wanted)).length = messages.length := by
    rw [List.length_drop]
    omega
  rw [hput] at hflood
  rw [hall, hdrop] at hsettled
  exact ⟨p', ts', r, us, pending, hstream.trans hflood, hB', hsettled⟩

end Shared.Network
