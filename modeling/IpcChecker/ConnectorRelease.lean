import IpcChecker.ConnectorMethods
import IpcChecker.Shared.Ledger
import IpcChecker.Shared.Runs

/-!
# What connectors release

A program's descriptors are the tokens of a ledger that the live connectors hold. The
ledger stays balanced, and each object keeps a connector that will unlink it, for as
long as no step takes one of the ways in which something is lost.
-/

namespace IpcChecker
open Shared
set_option autoImplicit false

/-- The ledger of the descriptors. -/
def ledger (r : Resources) (live : List Connector) : Ledger :=
  ⟨r.openedBy.length, r.closed, live.filterMap Connector.fd⟩

/-- Whether a connector goes back to a construction and unlinks a name. -/
def Connector.unlinksFor (origin : Nat) (name : ObjectName) (c : Connector) : Bool :=
  c.origin = origin ∧ c.unlinks = some name

/-- Each descriptor is closed once or held by one connector, which goes back to the construction
that it was opened for; each object that a construction created has one connector that goes
back to this construction and unlinks it. -/
structure Accounted (r : Resources) (live : List Connector) : Prop where
  descriptors : (ledger r live).Balanced
  owners : ∀ c ∈ live, ∀ d, c.fd = some d → r.openedBy[d]? = some c.origin
  objects : ∀ object ∈ r.objects, ∀ origin, object.creator = some origin →
    object.name.bytes ≠ [] ∧ live.countP (Connector.unlinksFor origin object.name) = 1

section Accounted
variable {r : Resources} {live rest : List Connector} {frame frame' : Frame} {c : Connector}

theorem unlinksFor_eq_true {origin : Nat} {name : ObjectName} :
    c.unlinksFor origin name = true ↔ c.origin = origin ∧ c.unlinks = some name :=
  decide_eq_true_iff

theorem movedFrom_unlinksFor (c : Connector) (origin : Nat) {name : ObjectName}
    (h : name.bytes ≠ []) : c.movedFrom.unlinksFor origin name = false := by
  rw [Bool.eq_false_iff]
  intro htrue
  obtain ⟨_, hunlinks⟩ := unlinksFor_eq_true.mp htrue
  unfold Connector.unlinks at hunlinks
  split at hunlinks
  all_goals cases hunlinks
  all_goals exact h rfl

theorem Accounted.perm (h : Accounted r live) {live' : List Connector} (hp : live.Perm live') :
    Accounted r live' where
  descriptors := h.descriptors.perm (hp.filterMap _)
  owners := fun c hc => h.owners c (hp.mem_iff.mpr hc)
  objects := by
    intro object hmem origin hcreator
    rw [← hp.countP_eq]
    exact h.objects object hmem origin hcreator

theorem held_cons (c : Connector) (rest : List Connector) :
    (c :: rest).filterMap Connector.fd = c.fd.toList ++ rest.filterMap Connector.fd := by
  cases hfd : c.fd with
  | none => simp [hfd]
  | some d => simp [hfd]

theorem Accounted.owners_append (h : Accounted r live) (more : List Nat) {d : Nat}
    (hc : c ∈ live) (hfd : c.fd = some d) : (r.openedBy ++ more)[d]? = some c.origin := by
  have hget := h.owners c hc d hfd
  obtain ⟨hlt, _⟩ := List.getElem?_eq_some_iff.mp hget
  rw [List.getElem?_append_left hlt, hget]

theorem countP_of_fresh {origin : Nat} (hfresh : ∀ c ∈ live, c.origin ≠ origin)
    (name : ObjectName) : live.countP (Connector.unlinksFor origin name) = 0 := by
  rw [List.countP_eq_zero]
  intro c hc htrue
  exact hfresh c hc (unlinksFor_eq_true.mp htrue).1

theorem Accounted.acquire (h : Accounted frame.resources live)
    (hfresh : ∀ c ∈ live, c.origin ≠ frame.self.origin) (hacquires : frame.Acquires frame') :
    Accounted frame'.resources (frame'.self :: live) := by
  obtain ⟨horigin, hclosed, hopened, hobjects⟩ := hacquires
  have hkept : ∀ object ∈ frame'.resources.objects, ∀ origin, object.creator = some origin →
      object.name.bytes ≠ [] ∧
        (frame'.self :: live).countP (Connector.unlinksFor origin object.name) = 1 := by
    intro object hmem origin hcreator
    rcases hobjects object hmem with hold | ⟨hnew, hbytes, hunlinks⟩
    · obtain ⟨hbytes, hone⟩ := h.objects object hold origin hcreator
      have hnot : frame'.self.unlinksFor origin object.name = false := by
        rw [Bool.eq_false_iff]
        intro htrue
        obtain ⟨rfl, _⟩ := unlinksFor_eq_true.mp htrue
        rw [horigin, countP_of_fresh hfresh] at hone
        cases hone
      rw [List.countP_cons_of_neg (by simp [hnot])]
      exact ⟨hbytes, hone⟩
    · obtain rfl : frame.self.origin = origin := Option.some.inj (hnew.symm.trans hcreator)
      have htrue := unlinksFor_eq_true.mpr ⟨horigin, hunlinks⟩
      rw [List.countP_cons_of_pos htrue, countP_of_fresh hfresh]
      exact ⟨hbytes, rfl⟩
  have hbalanced := h.descriptors
  rcases hopened with ⟨hsame, hfd⟩ | ⟨hmore, hfd⟩
  · refine ⟨?_, ?_, hkept⟩
    · unfold ledger at *
      rw [held_cons, hfd, hsame, hclosed]
      exact hbalanced
    · intro c hc d hd
      rw [hsame]
      rcases List.mem_cons.mp hc with rfl | hold
      · rw [hfd] at hd
        cases hd
      · exact h.owners c hold d hd
  · refine ⟨?_, ?_, hkept⟩
    · unfold ledger at *
      rw [held_cons, hfd, hmore, hclosed, List.length_append]
      exact hbalanced.issue
    · intro c hc d hd
      rw [hmore]
      rcases List.mem_cons.mp hc with rfl | hold
      · obtain rfl : frame.resources.openedBy.length = d := Option.some.inj (hfd.symm.trans hd)
        rw [List.getElem?_concat_length, horigin]
      · exact h.owners_append _ hold hd

theorem Accounted.handle (h : Accounted frame.resources (frame.self :: rest))
    (hhandles : frame.Handles frame') : Accounted frame'.resources (frame'.self :: rest) := by
  cases hhandles with
  | same => exact h
  | renewed =>
    have hbalanced := h.descriptors
    unfold ledger at hbalanced
    rw [held_cons] at hbalanced
    refine ⟨?_, ?_, ?_⟩
    · unfold ledger
      rw [held_cons]
      change Ledger.Balanced ⟨(frame.resources.openedBy ++ [frame.self.origin]).length, _, _⟩
      rw [List.length_append]
      exact hbalanced.giveBack.issue
    · intro c hc d hd
      change (frame.resources.openedBy ++ [frame.self.origin])[d]? = _
      rcases List.mem_cons.mp hc with rfl | hold
      · obtain rfl : frame.resources.openedBy.length = d := Option.some.inj hd
        rw [List.getElem?_concat_length]
        rfl
      · exact h.owners_append _ (List.mem_cons_of_mem _ hold) hd
    · intro object hmem origin hcreator
      have hobject := h.objects object hmem origin hcreator
      rw [List.countP_cons] at hobject ⊢
      exact hobject

theorem Accounted.move (h : Accounted r (c :: rest)) :
    Accounted r (c :: c.movedFrom :: rest) where
  descriptors := by
    have hbalanced := h.descriptors
    unfold ledger at *
    simp only [held_cons] at *
    exact hbalanced
  owners := by
    intro c' hc d hd
    rcases List.mem_cons.mp hc with rfl | hc
    · exact h.owners _ List.mem_cons_self d hd
    · rcases List.mem_cons.mp hc with rfl | hold
      · cases hd
      · exact h.owners c' (List.mem_cons_of_mem _ hold) d hd
  objects := by
    intro object hmem origin hcreator
    obtain ⟨hbytes, hone⟩ := h.objects object hmem origin hcreator
    have hnot := movedFrom_unlinksFor c origin hbytes
    rw [List.countP_cons] at hone ⊢
    rw [List.countP_cons_of_neg (by simp [hnot])]
    exact ⟨hbytes, hone⟩

variable (frame) in
theorem Accounted.destroy {answers : Answers}
    (h : Accounted frame.resources (frame.self :: rest))
    (hunlink : ∀ object ∈ frame.resources.objects, object.creator = some frame.self.origin →
      frame.self.unlinks = some object.name → answers.ok .unlink) :
    Accounted
      (Frame.after ((Connector.destroy answers frame.self.kind).run frame)).resources rest := by
  rw [destroy_after]
  have hbalanced := h.descriptors
  unfold ledger at hbalanced
  rw [held_cons] at hbalanced
  refine ⟨hbalanced.giveBack, fun c hc d hd => h.owners c (List.mem_cons_of_mem _ hc) d hd, ?_⟩
  intro object hmem origin hcreator
  have hold : object ∈ frame.resources.objects := by
    dsimp only at hmem
    split at hmem
    · exact List.mem_of_mem_filter hmem
    · exact hmem
  obtain ⟨hbytes, hone⟩ := h.objects object hold origin hcreator
  refine ⟨hbytes, ?_⟩
  by_cases hown : frame.self.unlinksFor origin object.name
  · -- Its own object is not there any more.
    obtain ⟨rfl, hname⟩ := unlinksFor_eq_true.mp hown
    have hok := hunlink object hold hcreator hname
    dsimp only at hmem
    rw [if_pos hok, List.mem_filter] at hmem
    exact absurd hname (of_decide_eq_true hmem.2)
  · rwa [List.countP_cons_of_neg hown] at hone

/-! The converses: what is lost is not accounted for. -/

/-- A constructor that returned without the name of the object it created. -/
theorem not_accounted_of_loses
    (hfresh : ∀ c ∈ live, c.origin ≠ frame.self.origin)
    (hloses : frame.Loses (.ok () frame')) :
    ¬ Accounted frame'.resources (frame'.self :: live) := by
  obtain ⟨_, object, hmem, hcreator, hunlinks⟩ := hloses
  intro h'
  obtain ⟨_, hone⟩ := h'.objects object hmem _ hcreator
  rw [List.countP_cons_of_neg, countP_of_fresh hfresh] at hone
  · cases hone
  · exact fun htrue => hunlinks (unlinksFor_eq_true.mp htrue).2

theorem Accounted.not_of_loses_error (h : Accounted frame.resources live)
    (hfresh : ∀ c ∈ live, c.origin ≠ frame.self.origin) {e : Failure}
    (hloses : frame.Loses (.error e frame')) : ¬ Accounted frame'.resources live := by
  obtain ⟨hclosed, hlonger | ⟨object, hmem, hcreator⟩⟩ := hloses
  · intro h'
    obtain ⟨hreturned, hheld⟩ := h.descriptors.fresh (Nat.le_refl _)
    rw [← show frame'.resources.closed = _ from hclosed] at hreturned
    exact Ledger.not_balanced_of_lost hlonger hreturned hheld h'.descriptors
  · intro h'
    obtain ⟨_, hone⟩ := h'.objects object hmem _ hcreator
    rw [countP_of_fresh hfresh] at hone
    cases hone

theorem Accounted.not_of_drops (h : Accounted frame.resources (frame.self :: rest))
    (hdrops : frame.Drops frame') : ¬ Accounted frame'.resources (frame'.self :: rest) := by
  intro h'
  refine absurd h'.descriptors ?_
  cases hdrops with
  | new hself hopened hclosed =>
    obtain ⟨hreturned, hheld⟩ := h.descriptors.fresh (Nat.le_refl _)
    apply Ledger.not_balanced_of_lost (t := frame.resources.openedBy.length)
    · change _ < frame'.resources.openedBy.length
      rw [hopened, List.length_append]
      exact Nat.lt_succ_self _
    · intro hmem
      rcases hclosed _ hmem with hold | hfd
      · exact hreturned hold
      · obtain ⟨hlt, _⟩ := List.getElem?_eq_some_iff.mp (h.owners _ List.mem_cons_self _ hfd)
        exact Nat.lt_irrefl _ hlt
    · unfold ledger
      rw [hself]
      exact hheld
  | @old d hfd hclosed hopened hnew =>
    have hbalanced := h.descriptors
    unfold ledger at hbalanced
    rw [held_cons, hfd] at hbalanced
    obtain ⟨hreturned, hrest⟩ := hbalanced.held_once
    have hlt := hbalanced.held_lt List.mem_cons_self
    apply Ledger.not_balanced_of_lost (t := d)
    · exact Nat.lt_of_lt_of_le hlt hopened
    · change d ∉ frame'.resources.closed
      rw [hclosed]
      exact hreturned
    · unfold ledger
      rw [held_cons, List.mem_append, not_or]
      refine ⟨fun hmem => ?_, hrest⟩
      have hle := hnew d (Option.mem_toList.mp hmem)
      omega

variable (frame) in
theorem Accounted.not_destroy {answers : Answers}
    (h : Accounted frame.resources (frame.self :: rest)) {object : NamedObject}
    (hmem : object ∈ frame.resources.objects) (hcreator : object.creator = some frame.self.origin)
    (hunlinks : frame.self.unlinks = some object.name) (hfail : ¬ answers.ok .unlink) :
    ¬ Accounted
      (Frame.after ((Connector.destroy answers frame.self.kind).run frame)).resources rest := by
  rw [destroy_after, if_neg hfail]
  intro h'
  obtain ⟨_, hone⟩ := h.objects object hmem _ hcreator
  obtain ⟨_, hone'⟩ := h'.objects object hmem _ hcreator
  rw [List.countP_cons_of_pos (unlinksFor_eq_true.mpr ⟨rfl, hunlinks⟩), hone'] at hone
  cases hone

end Accounted

/-! Steps of a program. -/

/-- The invariant; `fresh` says that the next construction gets a number of its own. -/
structure Program.Sound (p : Program) : Prop where
  accounted : Accounted p.resources p.live
  fresh : ∀ c ∈ p.live, c.origin < p.constructions

theorem Program.Sound.initial (names : List ObjectName) : (Program.initial names).Sound where
  accounted :=
    { descriptors := by
        intro t
        simp [ledger, Program.initial]
      owners := by
        intro c hc
        cases hc
      objects := by
        intro object hmem origin hcreator
        obtain ⟨name, _, rfl⟩ := List.mem_map.mp hmem
        cases hcreator }
  fresh := by
    intro c hc
    cases hc

section Steps
variable {p p' : Program} {answers : Answers}

theorem live_perm {live : List Connector} {i : Nat} {c : Connector} (hget : live[i]? = some c) :
    live.Perm (c :: live.eraseIdx i) := by
  obtain ⟨hlt, rfl⟩ := List.getElem?_eq_some_iff.mp hget
  exact (List.getElem_cons_eraseIdx_perm hlt).symm

theorem set_perm {live : List Connector} {i : Nat} {c : Connector} (hget : live[i]? = some c)
    (c' : Connector) : (live.set i c').Perm (c' :: live.eraseIdx i) := by
  obtain ⟨hlt, _⟩ := List.getElem?_eq_some_iff.mp hget
  exact List.set_perm_cons_eraseIdx hlt c'

variable (h : p.Sound)
include h

theorem Program.Sound.newFrame_fresh (kind : ConnectorKind) :
    ∀ c ∈ p.live, c.origin ≠ (p.newFrame kind).self.origin :=
  fun c hc => Nat.ne_of_lt (h.fresh c hc)

theorem Program.Sound.construct {kind : ConnectorKind} {connectionId : List UInt8}
    {bufferSize : Option UInt64} (hkeeps : p.ConstructKeeps kind connectionId bufferSize answers) :
    (p.construct kind connectionId bufferSize answers).Sound := by
  have hdelivers := construct_delivers hkeeps
  unfold Program.construct
  split
  · rename_i frame hrun
    rw [hrun] at hdelivers
    have hnew := h.accounted.acquire (h.newFrame_fresh kind) hdelivers
    refine ⟨hnew.perm (List.perm_append_singleton _ _).symm, ?_⟩
    intro c hc
    rcases List.mem_append.mp hc with hold | hlast
    · exact Nat.lt_succ_of_lt (h.fresh c hold)
    · rw [List.mem_singleton.mp hlast, hdelivers.origin]
      exact Nat.lt_succ_self _
  · rename_i frame hrun
    rw [hrun] at hdelivers
    have hsame : frame.resources = p.resources := hdelivers
    refine ⟨?_, fun c hc => Nat.lt_succ_of_lt (h.fresh c hc)⟩
    rw [hsame]
    exact h.accounted

theorem Program.Sound.not_construct {kind : ConnectorKind} {connectionId : List UInt8}
    {bufferSize : Option UInt64}
    (hloses : ¬ p.ConstructKeeps kind connectionId bufferSize answers) :
    ¬ Accounted (p.construct kind connectionId bufferSize answers).resources
      (p.construct kind connectionId bufferSize answers).live := by
  have hlost := construct_loses hloses
  unfold Program.construct
  split
  · rename_i frame hrun
    rw [hrun] at hlost
    intro h'
    exact not_accounted_of_loses (h.newFrame_fresh kind) hlost
      (h'.perm (List.perm_append_singleton _ _))
  · rename_i frame hrun
    rw [hrun] at hlost
    exact h.accounted.not_of_loses_error (h.newFrame_fresh kind) hlost

variable {α : Type} {method : Action Frame α} {i : Nat} {c : Connector}

theorem Program.Sound.call (hget : p.live[i]? = some c)
    (hhandles : (⟨p.resources, c⟩ : Frame).Handles (Frame.after (method.run ⟨p.resources, c⟩))) :
    (p.call method i c).Sound := by
  have hold := h.accounted.perm (live_perm hget)
  have hnew := hold.handle hhandles
  refine ⟨hnew.perm (set_perm hget _).symm, ?_⟩
  intro c' hc'
  rcases List.mem_cons.mp ((set_perm hget _).mem_iff.mp hc') with rfl | hrest
  · rw [hhandles.origin]
    exact h.fresh c (List.mem_of_getElem? hget)
  · exact h.fresh c' (List.mem_of_mem_eraseIdx hrest)

theorem Program.Sound.not_call (hget : p.live[i]? = some c)
    (hdrops : (⟨p.resources, c⟩ : Frame).Drops (Frame.after (method.run ⟨p.resources, c⟩))) :
    ¬ Accounted (p.call method i c).resources (p.call method i c).live := by
  have hold := h.accounted.perm (live_perm hget)
  intro h'
  exact hold.not_of_drops hdrops (h'.perm (set_perm hget _))

theorem Program.Sound.move (hget : p.live[i]? = some c) : (p.move i c).Sound := by
  have hold := h.accounted.perm (live_perm hget)
  have hperm : (p.live.set i c.movedFrom ++ [c]).Perm (c :: c.movedFrom :: p.live.eraseIdx i) :=
    (List.perm_append_singleton _ _).trans ((set_perm hget _).cons c)
  refine ⟨hold.move.perm hperm.symm, ?_⟩
  intro c' hc'
  have hc := h.fresh c (List.mem_of_getElem? hget)
  rcases List.mem_cons.mp (hperm.mem_iff.mp hc') with rfl | hc'
  · exact hc
  · rcases List.mem_cons.mp hc' with rfl | hrest
    · exact hc
    · exact h.fresh c' (List.mem_of_mem_eraseIdx hrest)

theorem Program.Sound.destroy (hget : p.live[i]? = some c)
    (hunlink : ∀ object ∈ p.resources.objects, object.creator = some c.origin →
      c.unlinks = some object.name → answers.ok .unlink) :
    (p.destroy i c answers).Sound := by
  have hold := h.accounted.perm (live_perm hget)
  exact ⟨hold.destroy ⟨p.resources, c⟩ hunlink,
    fun c' hc' => h.fresh c' (List.mem_of_mem_eraseIdx hc')⟩

theorem Program.Sound.step {e : ConnectorEvent} (hstep : p.Steps e p') (hkeeps : p.Keeps e) :
    p'.Sound := by
  unfold Program.Steps at hstep
  cases e with
  | construct kind connectionId bufferSize answers =>
    cases hstep
    exact h.construct hkeeps
  | connect i answers =>
    obtain ⟨c, hget, hrest⟩ := Option.bind_eq_some_iff.mp hstep
    obtain ⟨connect, hclass, hcall⟩ := Option.bind_eq_some_iff.mp hrest
    cases hcall
    exact h.call hget (connect_handles hclass (hkeeps c hget))
  | accept i answers =>
    obtain ⟨c, hget, hrest⟩ := Option.bind_eq_some_iff.mp hstep
    obtain ⟨accept, hclass, hcall⟩ := Option.bind_eq_some_iff.mp hrest
    cases hcall
    obtain rfl := accept_eq hclass
    exact h.call hget (accept_handles (hkeeps c hget))
  | move i =>
    obtain ⟨c, hget, hmove⟩ := Option.bind_eq_some_iff.mp hstep
    cases hmove
    exact h.move hget
  | destroy i answers =>
    obtain ⟨c, hget, hdestroy⟩ := Option.bind_eq_some_iff.mp hstep
    cases hdestroy
    exact h.destroy hget (hkeeps c hget)

/-- The condition is exact: a step that does not meet it loses something at once. -/
theorem Program.Sound.not_step {e : ConnectorEvent} (hstep : p.Steps e p')
    (hloses : ¬ p.Keeps e) : ¬ Accounted p'.resources p'.live := by
  unfold Program.Steps at hstep
  cases e with
  | construct kind connectionId bufferSize answers =>
    cases hstep
    exact h.not_construct hloses
  | connect i answers =>
    obtain ⟨c, hget, hrest⟩ := Option.bind_eq_some_iff.mp hstep
    obtain ⟨connect, hclass, hcall⟩ := Option.bind_eq_some_iff.mp hrest
    cases hcall
    apply h.not_call hget (connect_drops hclass ?_)
    intro hkeeps
    apply hloses
    intro c' hget'
    obtain rfl : c = c' := Option.some.inj (hget.symm.trans hget')
    exact hkeeps
  | accept i answers =>
    obtain ⟨c, hget, hrest⟩ := Option.bind_eq_some_iff.mp hstep
    obtain ⟨accept, hclass, hcall⟩ := Option.bind_eq_some_iff.mp hrest
    cases hcall
    obtain rfl := accept_eq hclass
    apply h.not_call hget (accept_drops ?_)
    intro hkeeps
    apply hloses
    intro c' hget'
    obtain rfl : c = c' := Option.some.inj (hget.symm.trans hget')
    exact hkeeps
  | move i => exact absurd trivial hloses
  | destroy i answers =>
    obtain ⟨c, hget, hdestroy⟩ := Option.bind_eq_some_iff.mp hstep
    cases hdestroy
    simp only [Program.Keeps, not_forall, exists_prop] at hloses
    obtain ⟨c', hget', object, hmem, hcreator, hunlinks, hfail⟩ := hloses
    obtain rfl : c = c' := Option.some.inj (hget.symm.trans hget')
    exact (h.accounted.perm (live_perm hget)).not_destroy ⟨p.resources, c⟩ hmem
      hcreator hunlinks hfail

end Steps

/-! Main result. -/

/-- No descriptor is closed twice, and a construction whose connector and all its moved copies are
gone, or which threw, has left no descriptor open and no object behind. -/
def Program.Released (p : Program) : Prop :=
  (∀ d, p.resources.closed.count d ≤ 1) ∧
  ∀ origin, (∀ c ∈ p.live, c.origin ≠ origin) →
    (∀ d, p.resources.openedBy[d]? = some origin → p.resources.closed.count d = 1) ∧
    ∀ object ∈ p.resources.objects, object.creator ≠ some origin

theorem Program.Sound.released {p : Program} (h : p.Sound) : p.Released := by
  constructor
  · exact h.accounted.descriptors.returned_le
  · intro origin hgone
    constructor
    · intro d hopened
      obtain ⟨hlt, _⟩ := List.getElem?_eq_some_iff.mp hopened
      apply h.accounted.descriptors.returned_once hlt
      intro hheld
      obtain ⟨c, hc, hfd⟩ := List.mem_filterMap.mp hheld
      have howner := h.accounted.owners c hc d hfd
      exact hgone c hc (Option.some.inj (howner.symm.trans hopened))
    · intro object hmem hcreator
      obtain ⟨_, hone⟩ := h.accounted.objects object hmem origin hcreator
      rw [countP_of_fresh hgone] at hone
      cases hone

/-- A constructor that meets the condition and throws has changed nothing. -/
theorem Program.construct_throws {p : Program} {kind : ConnectorKind} {connectionId : List UInt8}
    {bufferSize : Option UInt64} {answers : Answers}
    (hkeeps : p.ConstructKeeps kind connectionId bufferSize answers)
    (hthrows : (p.construct kind connectionId bufferSize answers).live = p.live) :
    (p.construct kind connectionId bufferSize answers).resources = p.resources := by
  have hdelivers := construct_delivers hkeeps
  unfold Program.construct at *
  split
  · rename_i frame hrun
    rw [hrun] at hthrows
    have hlength := congrArg List.length hthrows
    rw [List.length_append] at hlength
    exact absurd hlength (Nat.succ_ne_self _)
  · rename_i frame hrun
    rw [hrun] at hdelivers
    exact hdelivers

/-- A step of a program that meets the condition. -/
def Program.KeepingSteps (p : Program) (e : ConnectorEvent) (p' : Program) : Prop :=
  p.Steps e p' ∧ p.Keeps e

/-- While every step meets the condition, whatever is acquired is released; and the first step
that does not meet it loses something. -/
theorem connectors_release (names : List ObjectName) {events : List ConnectorEvent} {p : Program}
    (hrun : Run Program.KeepingSteps (Program.initial names) events p) :
    p.Released ∧
    (∀ kind connectionId bufferSize answers,
      p.ConstructKeeps kind connectionId bufferSize answers →
      (p.construct kind connectionId bufferSize answers).live = p.live →
      (p.construct kind connectionId bufferSize answers).resources = p.resources) ∧
    ∀ e p', p.Steps e p' → (Accounted p'.resources p'.live ↔ p.Keeps e) := by
  have h : p.Sound := hrun.invariant (Program.Sound.initial names)
    fun _ _ _ hsound hstep => hsound.step hstep.1 hstep.2
  refine ⟨h.released, fun _ _ _ _ => Program.construct_throws, ?_⟩
  intro e p' hstep
  constructor
  · intro haccounted
    by_contra hloses
    exact h.not_step hstep hloses haccounted
  · exact fun hkeeps => (h.step hstep hkeeps).accounted

def successes : Answers := ⟨fun _ => none, 4288, true, 0⟩

/-- `ftruncate` finds no space. -/
def noSpace : Answers :=
  { successes with errno := fun call => if call = .ftruncate then some .other else none }

/-- Where a server of shared memory throws and another one of its name is constructed, what the
first acquired is not released. -/
theorem failed_server_leaves_object :
    ¬ ∀ names events p, Run Program.Steps (Program.initial names) events p → p.Released := by
  intro hall
  have hrun : Run Program.Steps (Program.initial [])
      [.construct .sharedMemoryServer [0x78] (some 4096) noSpace,
        .construct .sharedMemoryServer [0x78] (some 4096) successes] _ := Run.of_foldlM rfl
  obtain ⟨_, hgone⟩ := hall [] _ _ hrun
  obtain ⟨hclosed, _⟩ := hgone 0 (fun c hc => by cases hc)
  exact absurd (hclosed 0 rfl) (by decide)

def sampleEvents : List ConnectorEvent :=
  [.construct .pipeServer [0x78] none successes, .construct .pipeClient [0x78] none successes,
    .connect 1 successes, .move 0, .destroy 0 successes]

theorem connectors_release_sample :
    ∃ p, Run Program.KeepingSteps (Program.initial []) sampleEvents p ∧ p.live.length = 2 ∧
      p.Released := by
  obtain ⟨p, hrun, hlive⟩ :
      ∃ p, Run Program.KeepingSteps (Program.initial []) sampleEvents p ∧ p.live.length = 2 := by
    refine ⟨_, .cons ⟨rfl, fun _ => ⟨rfl, rfl⟩, fun _ _ => rfl⟩ (.cons ⟨rfl, trivial⟩
      (.cons ⟨rfl, fun c hget => ?_⟩ (.cons ⟨rfl, trivial⟩
        (.single ⟨rfl, fun _ _ _ _ _ _ => rfl⟩)))), rfl⟩
    cases hget
    rfl
  exact ⟨p, hrun, hlive, (connectors_release [] hrun).1⟩

end IpcChecker
