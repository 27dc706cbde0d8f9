import IpcChecker.Shared.Commuting
import IpcChecker.Shared.Fifo
import Mathlib.Logic.Function.Basic

/-!
# Sequential processes over channels

Each channel has one process that sends on it and one that receives from it. Two
processes never get in each other's way, so all runs of a network with the same
clock readings end alike. A channel may be replaced by another one that answers alike.
-/

namespace Shared
set_option autoImplicit false

/-- What a process does next: a step of its own, a reading of the clock, or an exchange
with a channel, which answers. -/
inductive Request (κ β ε τ σ : Type) where
  | halt
  | internal (next : σ)
  | clock (next : τ → σ)
  | send (c : κ) (b : β) (next : Except ε Unit → σ)
  | receive (c : κ) (b : β) (next : Except ε β → σ)

/-- The same request of a process that is part of a larger one. -/
def Request.map {κ β ε τ σ ρ : Type} (f : σ → ρ) : Request κ β ε τ σ → Request κ β ε τ ρ
  | .halt => .halt
  | .internal next => .internal (f next)
  | .clock next => .clock fun now => f (next now)
  | .send c b next => .send c b fun r => f (next r)
  | .receive c b next => .receive c b fun r => f (next r)

namespace Request
variable {κ β ε τ σ ρ : Type} {f : σ → ρ} {r : Request κ β ε τ σ} {c : κ} {b : β}

theorem map_id (r : Request κ β ε τ σ) : r.map id = r := by
  cases r <;> rfl

theorem of_map_send {next : Except ε Unit → ρ} (h : r.map f = .send c b next) :
    ∃ next', r = .send c b next' ∧ next = fun a => f (next' a) := by
  cases r with
  | send c' b' next' =>
    cases h
    exact ⟨next', rfl, rfl⟩
  | _ => cases h

theorem of_map_receive {next : Except ε β → ρ} (h : r.map f = .receive c b next) :
    ∃ next', r = .receive c b next' := by
  cases r with
  | receive c' b' next' =>
    cases h
    exact ⟨next', rfl⟩
  | _ => cases h

/-- What a process may be after its next move, whatever the answer. -/
def Next : Request κ β ε τ σ → σ → Prop
  | .halt, _ => False
  | .internal next, q => q = next
  | .clock next, q => ∃ now, q = next now
  | .send _ _ next, q => ∃ a, q = next a
  | .receive _ _ next, q => ∃ a, q = next a

theorem next_map {q : ρ} (h : (r.map f).Next q) : ∃ p, r.Next p ∧ q = f p := by
  cases r with
  | halt => cases h
  | internal next => exact ⟨next, rfl, h⟩
  | clock next =>
    obtain ⟨now, rfl⟩ := h
    exact ⟨_, ⟨now, rfl⟩, rfl⟩
  | send c b next =>
    obtain ⟨a, rfl⟩ := h
    exact ⟨_, ⟨a, rfl⟩, rfl⟩
  | receive c b next =>
    obtain ⟨a, rfl⟩ := h
    exact ⟨_, ⟨a, rfl⟩, rfl⟩

end Request

/-- The two ends of a channel. A call that has to wait gives nothing. -/
structure Link (β ε : Type) where
  State : Type
  send : State → β → Option (Except ε Unit × State)
  receive : State → β → Option (Except ε β × State)

/-- A channel whose ends do not disturb each other. -/
structure Channel (β ε : Type) extends Link β ε where
  commutes : ∀ {x y z : State} {b b' : β} {r : Except ε Unit} {r' : Except ε β},
    send x b = some (r, y) → receive x b' = some (r', z) →
      ∃ w, send z b = some (r, w) ∧ receive y b' = some (r', w)

structure Network (ι κ β ε τ : Type) where
  Local : ι → Type
  request : ∀ i, Local i → Request κ β ε τ (Local i)
  sender : κ → ι
  receiver : κ → ι
  sends : ∀ {i p c b next}, request i p = .send c b next → sender c = i
  receives : ∀ {i p c b next}, request i p = .receive c b next → receiver c = i

namespace Network
variable {ι κ β ε τ : Type}

/-- `readings` are what the clock will show to each process. -/
structure State (N : Network ι κ β ε τ) (link : κ → Link β ε) where
  process : ∀ i, N.Local i
  readings : ι → List τ
  channel : ∀ c, (link c).State

variable {N : Network ι κ β ε τ} {link : κ → Link β ε}

namespace State
variable [DecidableEq ι]

def put (s : State N link) (i : ι) (p : N.Local i) (ts : List τ)
    (ch : ∀ c, (link c).State) : State N link :=
  ⟨Function.update s.process i p, Function.update s.readings i ts, ch⟩

variable {s : State N link} {i j : ι} {p p' : N.Local i} {q : N.Local j} {ts ts' us : List τ}
variable {ch ch' : ∀ c, (link c).State}

@[simp] theorem put_process : (s.put i p ts ch).process i = p := Function.update_self _ _ _

@[simp] theorem put_readings : (s.put i p ts ch).readings i = ts := Function.update_self _ _ _

@[simp] theorem put_channel : (s.put i p ts ch).channel = ch := rfl

theorem put_process_of_ne (h : j ≠ i) : (s.put i p ts ch).process j = s.process j :=
  Function.update_of_ne h _ _

theorem put_readings_of_ne (h : j ≠ i) : (s.put i p ts ch).readings j = s.readings j :=
  Function.update_of_ne h _ _

@[simp] theorem put_put : (s.put i p ts ch).put i p' ts' ch' = s.put i p' ts' ch' := by
  unfold put
  simp

theorem put_comm (h : i ≠ j) : (s.put i p ts ch).put j q us ch' =
    (s.put j q us ch).put i p ts ch' := by
  unfold put
  rw [Function.update_comm h, Function.update_comm h]

theorem put_put_of_ne (h : i ≠ j) : ((s.put i p ts ch).put j q us ch').put i p' ts' ch =
    (s.put i p' ts' ch).put j q us ch := by
  rw [put_comm h, put_put]
  exact put_comm (Ne.symm h)

theorem put_self : s.put i (s.process i) (s.readings i) s.channel = s := by
  unfold put
  simp

end State

section Moves
variable [DecidableEq κ]

/-- A process at work on its own part of the state and on the channels; the reading taken. -/
inductive Move (N : Network ι κ β ε τ) (link : κ → Link β ε) {i : ι} (p : N.Local i)
    (ts : List τ) (ch : ∀ c, (link c).State) :
    Option τ → N.Local i → List τ → (∀ c, (link c).State) → Prop where
  | internal {next : N.Local i} : N.request i p = .internal next →
      Move N link p ts ch none next ts ch
  | clock {next : τ → N.Local i} {now : τ} {later : List τ} : N.request i p = .clock next →
      ts = now :: later → Move N link p ts ch (some now) (next now) later ch
  | send {c : κ} {b : β} {next : Except ε Unit → N.Local i} {r : Except ε Unit}
      {x : (link c).State} : N.request i p = .send c b next →
      (link c).send (ch c) b = some (r, x) →
        Move N link p ts ch none (next r) ts (Function.update ch c x)
  | receive {c : κ} {b : β} {next : Except ε β → N.Local i} {r : Except ε β}
      {x : (link c).State} : N.request i p = .receive c b next →
      (link c).receive (ch c) b = some (r, x) →
        Move N link p ts ch none (next r) ts (Function.update ch c x)

namespace Move
variable {i j : ι} {p p' p'' : N.Local i} {q q' : N.Local j}
variable {ts ts' ts'' us us' : List τ} {r r' : Option τ}

theorem unique {ch ch' ch'' : ∀ c, (link c).State} (h : Move N link p ts ch r p' ts' ch')
    (h' : Move N link p ts ch r' p'' ts'' ch'') :
    r = r' ∧ p' = p'' ∧ ts' = ts'' ∧ ch' = ch'' := by
  cases h with
  | internal hreq =>
    cases h' with
    | internal hreq' =>
      cases hreq.symm.trans hreq'
      exact ⟨rfl, rfl, rfl, rfl⟩
    | _ hreq' => cases hreq.symm.trans hreq'
  | clock hreq hts =>
    cases h' with
    | clock hreq' hts' =>
      cases hreq.symm.trans hreq'
      cases hts.symm.trans hts'
      exact ⟨rfl, rfl, rfl, rfl⟩
    | _ hreq' => cases hreq.symm.trans hreq'
  | send hreq hsend =>
    cases h' with
    | send hreq' hsend' =>
      cases hreq.symm.trans hreq'
      cases hsend.symm.trans hsend'
      exact ⟨rfl, rfl, rfl, rfl⟩
    | _ hreq' => cases hreq.symm.trans hreq'
  | receive hreq hreceive =>
    cases h' with
    | receive hreq' hreceive' =>
      cases hreq.symm.trans hreq'
      cases hreceive.symm.trans hreceive'
      exact ⟨rfl, rfl, rfl, rfl⟩
    | _ hreq' => cases hreq.symm.trans hreq'

theorem next {ch ch' : ∀ c, (link c).State} (h : Move N link p ts ch r p' ts' ch') :
    (N.request i p).Next p' := by
  cases h with
  | internal hreq =>
    rw [hreq]
    rfl
  | clock hreq =>
    rw [hreq]
    exact ⟨_, rfl⟩
  | send hreq =>
    rw [hreq]
    exact ⟨_, rfl⟩
  | receive hreq =>
    rw [hreq]
    exact ⟨_, rfl⟩

theorem readings {ch ch' : ∀ c, (link c).State} (h : Move N link p ts ch r p' ts' ch') :
    r.toList ++ ts' = ts := by
  cases h with
  | internal hreq => rfl
  | clock hreq hts => exact hts.symm
  | send hreq hsend => rfl
  | receive hreq hreceive => rfl

theorem not_halt {ch ch' : ∀ c, (link c).State} (h : Move N link p ts ch r p' ts' ch') :
    N.request i p ≠ .halt := by
  intro hhalt
  have hnext := h.next
  rw [hhalt] at hnext
  exact hnext

variable {channel : κ → Channel β ε} {ch ch₁ ch₂ : ∀ c, (channel c).State}

/-- A sender and a receiver, on two channels or on one. -/
theorem comm_send {c : κ} {b : β} {next : Except ε Unit → N.Local i} {a : Except ε Unit}
    {x : (channel c).State} (hij : i ≠ j) (hreq : N.request i p = .send c b next)
    (hsend : (channel c).send (ch c) b = some (a, x))
    (h' : Move N (fun c => (channel c).toLink) q us ch r' q' us' ch₂) :
    ∃ ch', Move N (fun c => (channel c).toLink) q us (Function.update ch c x) r' q' us' ch' ∧
      Move N (fun c => (channel c).toLink) p ts ch₂ none (next a) ts ch' := by
  cases h' with
  | internal hreq' => exact ⟨_, .internal hreq', .send hreq hsend⟩
  | clock hreq' hts => exact ⟨_, .clock hreq' hts, .send hreq hsend⟩
  | @send c' b' next' a' y hreq' hsend' =>
    have hne : c ≠ c' := by
      rintro rfl
      exact hij ((N.sends hreq).symm.trans (N.sends hreq'))
    refine ⟨Function.update (Function.update ch c x) c' y, .send hreq' ?_, ?_⟩
    · rw [Function.update_of_ne hne.symm]
      exact hsend'
    · rw [Function.update_comm hne]
      apply Move.send hreq
      rw [Function.update_of_ne hne]
      exact hsend
  | @receive c' b' next' a' y hreq' hreceive' =>
    by_cases hsame : c = c'
    · subst hsame
      obtain ⟨w, hw, hw'⟩ := (channel c).commutes hsend hreceive'
      refine ⟨Function.update ch c w, ?_, ?_⟩
      · have hmove : Move N (fun c => (channel c).toLink) q us (Function.update ch c x) none
            (next' a') us (Function.update (Function.update ch c x) c w) :=
          .receive hreq' (by rwa [Function.update_self])
        rwa [Function.update_idem] at hmove
      · have hmove : Move N (fun c => (channel c).toLink) p ts (Function.update ch c y) none
            (next a) ts (Function.update (Function.update ch c y) c w) :=
          .send hreq (by rwa [Function.update_self])
        rwa [Function.update_idem] at hmove
    · refine ⟨Function.update (Function.update ch c x) c' y, .receive hreq' ?_, ?_⟩
      · rw [Function.update_of_ne (Ne.symm hsame)]
        exact hreceive'
      · rw [Function.update_comm hsame]
        apply Move.send hreq
        rw [Function.update_of_ne hsame]
        exact hsend

/-- What one process does to the channels does not get in the way of another. -/
theorem comm (hij : i ≠ j) (h : Move N (fun c => (channel c).toLink) p ts ch r p' ts' ch₁)
    (h' : Move N (fun c => (channel c).toLink) q us ch r' q' us' ch₂) :
    ∃ ch', Move N (fun c => (channel c).toLink) q us ch₁ r' q' us' ch' ∧
      Move N (fun c => (channel c).toLink) p ts ch₂ r p' ts' ch' := by
  cases h with
  | internal hreq => exact ⟨_, h', .internal hreq⟩
  | clock hreq hts => exact ⟨_, h', .clock hreq hts⟩
  | send hreq hsend => exact comm_send hij hreq hsend h'
  | @receive c b next a x hreq hreceive =>
    cases h' with
    | internal hreq' => exact ⟨_, .internal hreq', .receive hreq hreceive⟩
    | clock hreq' hts => exact ⟨_, .clock hreq' hts, .receive hreq hreceive⟩
    | send hreq' hsend' =>
      obtain ⟨ch', hsecond, hfirst⟩ := comm_send hij.symm hreq' hsend' (.receive hreq hreceive)
      exact ⟨ch', hfirst, hsecond⟩
    | @receive c' b' next' a' y hreq' hreceive' =>
      have hne : c ≠ c' := by
        rintro rfl
        exact hij ((N.receives hreq).symm.trans (N.receives hreq'))
      refine ⟨Function.update (Function.update ch c x) c' y, .receive hreq' ?_, ?_⟩
      · rw [Function.update_of_ne hne.symm]
        exact hreceive'
      · rw [Function.update_comm hne]
        apply Move.receive hreq
        rw [Function.update_of_ne hne]
        exact hreceive

end Move
end Moves

section Runs
variable [DecidableEq ι] [DecidableEq κ]

/-- Some process makes a move; the label says which one, and what it read off the clock. -/
def Steps (N : Network ι κ β ε τ) (link : κ → Link β ε) (s : State N link) (e : ι × Option τ)
    (s' : State N link) : Prop :=
  ∃ p ts ch, Move N link (s.process e.1) (s.readings e.1) s.channel e.2 p ts ch ∧
    s' = s.put e.1 p ts ch

theorem commuting (N : Network ι κ β ε τ) (channel : κ → Channel β ε) :
    Commuting (N.Steps fun c => (channel c).toLink) := by
  rintro s ⟨i, r⟩ t ⟨j, r'⟩ u ⟨p, ts, ch, hmove, rfl⟩ ⟨q, us, ch', hmove', rfl⟩
  by_cases hij : i = j
  · subst hij
    obtain ⟨rfl, rfl, rfl, rfl⟩ := hmove.unique hmove'
    exact Or.inl ⟨rfl, rfl⟩
  · obtain ⟨ch'', hsecond, hfirst⟩ := hmove.comm hij hmove'
    refine Or.inr ⟨(s.put i p ts ch).put j q us ch'', ⟨q, us, ch'', ?_, rfl⟩,
      ⟨p, ts, ch'', ?_, State.put_comm hij⟩⟩
    · rw [State.put_process_of_ne (Ne.symm hij), State.put_readings_of_ne (Ne.symm hij)]
      exact hsecond
    · rw [State.put_process_of_ne hij, State.put_readings_of_ne hij]
      exact hfirst

theorem ended_of_halt {s : State N link} (h : ∀ i, N.request i (s.process i) = .halt) :
    Ended (N.Steps link) s := by
  rintro ⟨i, r⟩ t ⟨p, ts, ch, hmove, rfl⟩
  exact hmove.not_halt (h i)

/-- What a process has read off its clock, and then what is still to come, is the clock's list. -/
theorem readings_append {s t : State N link} {es : List (ι × Option τ)}
    (h : Run (N.Steps link) s es t) (i : ι) :
    (es.filter fun e => e.1 = i).filterMap Prod.snd ++ t.readings i = s.readings i := by
  induction h with
  | start => rfl
  | @step es e u _ _ hstep ih =>
    obtain ⟨j, r⟩ := e
    obtain ⟨p, ts, ch, hmove, rfl⟩ := hstep
    rw [← ih, List.filter_append, List.filterMap_append, List.append_assoc]
    apply congrArg (_ ++ ·)
    by_cases hij : j = i
    · subst hij
      rw [List.filter_singleton, decide_eq_true rfl, State.put_readings, ← hmove.readings]
      cases r <;> rfl
    · have hsame : (u.put j p ts ch).readings i = u.readings i :=
        State.put_readings_of_ne (Ne.symm hij)
      rw [List.filter_singleton, decide_eq_false hij]
      exact hsame

/-- What every move of a process keeps, a run keeps. -/
theorem process_invariant {s t : State N link} {es : List (ι × Option τ)} {i : ι}
    {I : N.Local i → Prop} (h0 : I (s.process i))
    (hnext : ∀ p q, I p → (N.request i p).Next q → I q)
    (hrun : Run (N.Steps link) s es t) : I (t.process i) := by
  refine Run.invariant (I := fun t => I (t.process i)) h0 ?_ hrun
  rintro t ⟨j, r⟩ u hI ⟨p, ts, ch, hmove, rfl⟩
  by_cases hij : i = j
  · subst hij
    rw [State.put_process]
    exact hnext _ _ hI hmove.next
  · rw [State.put_process_of_ne hij]
    exact hI

/-- A process that has halted stays as it is. -/
theorem halted {s t : State N link} {es : List (ι × Option τ)} {i : ι}
    (h : N.request i (s.process i) = .halt) (hrun : Run (N.Steps link) s es t) :
    t.process i = s.process i := by
  refine process_invariant (I := fun p => p = s.process i) rfl ?_ hrun
  rintro _ q rfl hnext
  rw [h] at hnext
  cases hnext

end Runs
end Network

/-- Two links that answer alike as long as their states are related, to the sends that are
admitted. -/
structure Refinement {β ε : Type} (impl spec : Link β ε) where
  Related : impl.State → spec.State → Prop
  Admits : β → Prop
  send : ∀ {x y} (b : β), Admits b → Related x y →
    Option.Rel (fun a a' => a.1 = a'.1 ∧ Related a.2 a'.2) (impl.send x b) (spec.send y b)
  receive : ∀ {x y} (b : β), Related x y →
    Option.Rel (fun a a' => a.1 = a'.1 ∧ Related a.2 a'.2) (impl.receive x b) (spec.receive y b)

theorem rel_swap {α β γ : Type} {R : β → γ → Prop} {x : Option (α × β)} {y : Option (α × γ)}
    (h : Option.Rel (fun a a' => a.1 = a'.1 ∧ R a.2 a'.2) x y) :
    Option.Rel (fun a a' => a.1 = a'.1 ∧ R a'.2 a.2) y x := by
  cases h with
  | some h => exact .some ⟨h.1.symm, h.2⟩
  | none => exact .none

theorem exists_of_rel {α β γ : Type} {R : β → γ → Prop} {y : Option (α × γ)} {a : α} {b : β}
    (h : Option.Rel (fun a a' => a.1 = a'.1 ∧ R a.2 a'.2) (some (a, b)) y) :
    ∃ c, y = some (a, c) ∧ R b c := by
  cases h with
  | @some _ r h =>
    obtain ⟨a', c⟩ := r
    obtain ⟨rfl, hc⟩ := h
    exact ⟨c, rfl, hc⟩

def Refinement.symm {β ε : Type} {impl spec : Link β ε} (r : Refinement impl spec) :
    Refinement spec impl where
  Related y x := r.Related x y
  Admits := r.Admits
  send b ha h := rel_swap (r.send b ha h)
  receive b h := rel_swap (r.receive b h)

namespace Network
variable {ι κ β ε τ : Type} {N : Network ι κ β ε τ} {impl spec : κ → Link β ε}

/-- The processes are in the same states, and every channel is related to its model. -/
structure Related (r : ∀ c, Refinement (impl c) (spec c)) (s : State N impl) (u : State N spec) :
    Prop where
  process : s.process = u.process
  readings : s.readings = u.readings
  channel : ∀ c, (r c).Related (s.channel c) (u.channel c)

/-- Whatever is sent in a state is admitted. -/
def Admitted (r : ∀ c, Refinement (impl c) (spec c)) (process : ∀ i, N.Local i) : Prop :=
  ∀ i c b next, N.request i (process i) = .send c b next → (r c).Admits b

namespace Related
variable {r : ∀ c, Refinement (impl c) (spec c)} {s s' : State N impl} {u u' : State N spec}

theorem symm (h : Related r s u) : Related (fun c => (r c).symm) u s where
  process := h.process.symm
  readings := h.readings.symm
  channel := h.channel

variable [DecidableEq ι] [DecidableEq κ] {e : ι × Option τ} {es fs : List (ι × Option τ)}

omit [DecidableEq κ] in
theorem put (h : Related r s u) (i : ι) (p : N.Local i) (ts : List τ)
    {ch : ∀ c, (impl c).State} {ch' : ∀ c, (spec c).State}
    (hch : ∀ c, (r c).Related (ch c) (ch' c)) : Related r (s.put i p ts ch) (u.put i p ts ch') where
  process := by
    unfold State.put
    rw [h.process]
  readings := by
    unfold State.put
    rw [h.readings]
  channel := hch

omit [DecidableEq ι] in
theorem update (h : Related r s u) {c : κ} {x : (impl c).State} {y : (spec c).State}
    (hxy : (r c).Related x y) (c' : κ) :
    (r c').Related (Function.update s.channel c x c') (Function.update u.channel c y c') := by
  by_cases hsame : c' = c
  · subst hsame
    rwa [Function.update_self, Function.update_self]
  · rw [Function.update_of_ne hsame, Function.update_of_ne hsame]
    exact h.channel c'

theorem step (h : Related r s u) (hadmitted : Admitted r s.process)
    (hstep : N.Steps impl s e s') : ∃ u', N.Steps spec u e u' ∧ Related r s' u' := by
  obtain ⟨i, now⟩ := e
  obtain ⟨p, ts, ch, hmove, rfl⟩ := hstep
  unfold Steps
  rw [← h.process, ← h.readings]
  cases hmove with
  | internal hreq => exact ⟨_, ⟨_, _, _, .internal hreq, rfl⟩, h.put _ _ _ h.channel⟩
  | clock hreq hts => exact ⟨_, ⟨_, _, _, .clock hreq hts, rfl⟩, h.put _ _ _ h.channel⟩
  | @send c b next a x hreq hsend =>
    have hrel := (r c).send b (hadmitted i c b next hreq) (h.channel c)
    rw [hsend] at hrel
    obtain ⟨y, hy, hxy⟩ := exists_of_rel hrel
    exact ⟨_, ⟨_, _, _, .send hreq hy, rfl⟩, h.put _ _ _ (h.update hxy)⟩
  | @receive c b next a x hreq hreceive =>
    have hrel := (r c).receive b (h.channel c)
    rw [hreceive] at hrel
    obtain ⟨y, hy, hxy⟩ := exists_of_rel hrel
    exact ⟨_, ⟨_, _, _, .receive hreq hy, rfl⟩, h.put _ _ _ (h.update hxy)⟩

/-- If nothing else is sent in any run over the models, a run over the links is one over the
models. -/
theorem run (h : Related r s u)
    (hadmitted : ∀ es v, Run (N.Steps spec) u es v → Admitted r v.process)
    (hrun : Run (N.Steps impl) s es s') : ∃ u', Run (N.Steps spec) u es u' ∧ Related r s' u' := by
  induction hrun with
  | start => exact ⟨u, .start, h⟩
  | step _ hstep ih =>
    obtain ⟨v, hv, hrel⟩ := ih
    obtain ⟨u', hu', hrel'⟩ := hrel.step (hrel.process ▸ hadmitted _ v hv) hstep
    exact ⟨u', .step hv hu', hrel'⟩

/-- The other way round, for the rest of a run over the models. -/
theorem run_back (h : Related r s u)
    (hadmitted : ∀ es v, Run (N.Steps spec) u es v → Admitted r v.process)
    (hrun : Run (N.Steps spec) u es u') : ∃ s', Run (N.Steps impl) s es s' ∧ Related r s' u' := by
  induction hrun with
  | start => exact ⟨s, .start, h⟩
  | step hbefore hstep ih =>
    obtain ⟨v, hv, hrel⟩ := ih
    obtain ⟨s', hs', hrel'⟩ := hrel.symm.step (hadmitted _ _ hbefore) hstep
    exact ⟨s', .step hv hs', hrel'.symm⟩

/-- Where the links come to an end, the models do. -/
theorem ended (h : Related r s u) (hadmitted : Admitted r u.process)
    (hend : Ended (N.Steps impl) s) : Ended (N.Steps spec) u := by
  intro e v hstep
  obtain ⟨s', hs', _⟩ := h.symm.step hadmitted hstep
  exact hend e s' hs'

/-- The end that a run over the models reaches is the end of every run over the links. -/
theorem completes {channel : κ → Channel β ε} {r : ∀ c, Refinement (impl c) (channel c).toLink}
    {u t : State N fun c => (channel c).toLink} (h : Related r s u)
    (hadmitted : ∀ es v, Run (N.Steps fun c => (channel c).toLink) u es v → Admitted r v.process)
    (hend : Ended (N.Steps fun c => (channel c).toLink) t)
    (hrun : Run (N.Steps fun c => (channel c).toLink) u es t)
    (hrun' : Run (N.Steps impl) s fs s') :
    ∃ gs t', Run (N.Steps impl) s' gs t' ∧ (fs ++ gs).Perm es ∧ Related r t' t := by
  obtain ⟨u', hu, hrel⟩ := h.run hadmitted hrun'
  obtain ⟨gs, hgs, hperm⟩ := Commuting.completes (commuting N channel) hend hrun hu
  obtain ⟨t', ht, hrel'⟩ :=
    hrel.run_back (fun es v hv => hadmitted _ v (hu.trans hv)) hgs
  exact ⟨gs, t', ht, hperm, hrel'⟩

end Related
end Network
end Shared
