import IpcChecker.MeasurerConnections
import IpcChecker.Shared.Runs

/-!
# The receiving loops over a socket

`Consumer::Run` and the two Analyzer workers run one loop: Reset, Receive, Unpack,
and a tick. The peer sends packed objects and may close at any time; a read fails,
or returns the next whole message, or nothing once the peer has closed. Receive
does not look at how much was read.
-/

namespace IpcChecker
open Shared
set_option autoImplicit false

/-- An object together with the bytes it was packed into. -/
structure Message (α : Type) where
  object : α
  bytes : List UInt8

/-- The bytes are what a sending loop handed to Send for this object. -/
def Message.Packed {α : Type} (pack : α → Action Buffer Unit) (m : Message α) : Prop :=
  ∃ b b', b.Valid ∧ (sendRound (pack m.object)).run b = .ok m.bytes b'

inductive LoopPhase (α : Type) where
  | head
  | entered
  | reset
  | received
  | unpacked (object : α)
  | finished
  | failed (e : Failure)

/-- `reads` lists the outcome of every `read` so far, `some` for a whole message, and
`objects` what the loop unpacked. -/
structure ReceivingLoop (α : Type) where
  buffer : Buffer
  measurer : Measurer
  phase : LoopPhase α
  unsent : List (Message α)
  inFlight : List (Message α)
  closed : Bool
  reads : List (Option α)
  objects : List α

inductive LoopEvent where
  | peerSends
  | peerCloses
  | test
  | resetBuffer
  | readFails
  | readMessage
  | readEnd
  | unpack
  | tick (now : TimeTick)
  deriving Repr, DecidableEq

namespace ReceivingLoop
variable {α : Type}

def initial (buffer : Buffer) (chunksTotalCount : UInt64) (messages : List (Message α)) :
    ReceivingLoop α where
  buffer := buffer
  measurer := Measurer.new chunksTotalCount
  phase := .head
  unsent := messages
  inFlight := []
  closed := false
  reads := []
  objects := []

/-- The messages that actually arrived. -/
def received (s : ReceivingLoop α) : List α := s.reads.filterMap id

/-- `Receive` with the given result of `read`. -/
def afterRead (result : ReadResult) (outcome : Option α) (s : ReceivingLoop α) : ReceivingLoop α :=
  match (receive result).run s.buffer with
  | .ok _ buffer => { s with buffer, phase := .received, reads := s.reads ++ [outcome] }
  | .error e buffer => { s with buffer, phase := .failed e, reads := s.reads ++ [outcome] }

def peerSends (s : ReceivingLoop α) : Option (ReceivingLoop α) :=
  match s.unsent with
  | [] => none
  | m :: unsent =>
    if s.closed then none else some { s with unsent, inFlight := s.inFlight ++ [m] }

def peerCloses (s : ReceivingLoop α) : Option (ReceivingLoop α) := some { s with closed := true }

/-- The condition of `while (!measurer.IsFull())`. -/
def test (s : ReceivingLoop α) : Option (ReceivingLoop α) :=
  match s.phase with
  | .head => some { s with phase := if s.measurer.isFull then .finished else .entered }
  | _ => none

def resetBuffer (s : ReceivingLoop α) : Option (ReceivingLoop α) :=
  match s.phase with
  | .entered => some { s with buffer := s.buffer.reset, phase := .reset }
  | _ => none

def readFails (s : ReceivingLoop α) : Option (ReceivingLoop α) :=
  match s.phase with
  | .reset => some (s.afterRead .failed none)
  | _ => none

def readMessage (s : ReceivingLoop α) : Option (ReceivingLoop α) :=
  match s.phase, s.inFlight with
  | .reset, m :: inFlight => some ({ s with inFlight }.afterRead (.bytes m.bytes) (some m.object))
  | _, _ => none

/-- After the close, and when everything sent was read, `read` returns 0. -/
def readEnd (s : ReceivingLoop α) : Option (ReceivingLoop α) :=
  match s.phase, s.inFlight with
  | .reset, [] => if s.closed then some (s.afterRead (.bytes []) none) else none
  | _, _ => none

def unpackObject (unpack : Action Buffer α) (s : ReceivingLoop α) : Option (ReceivingLoop α) :=
  match s.phase with
  | .received =>
    match unpack.run s.buffer with
    | .ok object buffer =>
      some { s with buffer, phase := .unpacked object, objects := s.objects ++ [object] }
    | .error e buffer => some { s with buffer, phase := .failed e }
  | _ => none

def recordTick (record : Measurer → α → TimeTick → Measurer) (now : TimeTick)
    (s : ReceivingLoop α) : Option (ReceivingLoop α) :=
  match s.phase with
  | .unpacked object =>
    some { s with measurer := record s.measurer object now, phase := .head }
  | _ => none

/-- `record` is what the loop does with its measurer after an Unpack. -/
def step (unpack : Action Buffer α) (record : Measurer → α → TimeTick → Measurer)
    (s : ReceivingLoop α) : LoopEvent → Option (ReceivingLoop α)
  | .peerSends => s.peerSends
  | .peerCloses => s.peerCloses
  | .test => s.test
  | .resetBuffer => s.resetBuffer
  | .readFails => s.readFails
  | .readMessage => s.readMessage
  | .readEnd => s.readEnd
  | .unpack => s.unpackObject unpack
  | .tick now => s.recordTick record now

/-- `Consumer::Run` takes the time after unpacking a message. -/
def consumerRecord {β : Type} (m : Measurer) (_ : β) (now : TimeTick) : Measurer := m.tick now

/-- An Analyzer worker keeps the tick it unpacked. -/
def analyzerRecord (m : Measurer) (tp : TimeTick) (_ : TimeTick) : Measurer := m.pushBack tp

def Steps (unpack : Action Buffer α) (record : Measurer → α → TimeTick → Measurer)
    (s : ReceivingLoop α) (e : LoopEvent) (s' : ReceivingLoop α) : Prop :=
  s.step unpack record e = some s'

/-- Every tick has its message, every unpacked object is that of the message read just
before, and a read without a message ended the loop. -/
structure NoPhantoms (s : ReceivingLoop α) : Prop where
  ticks_le : s.measurer.count ≤ s.received.length
  genuine : ∀ (i : Nat) (object : α), s.objects[i]? = some object →
    s.reads[i]? = some (some object)
  ends : none ∈ s.reads → ∃ e, s.phase = .failed e

/-- A message whose bytes fit a buffer and from which Unpack takes its object, if anything. -/
structure Deliverable (unpack : Action Buffer α) (m : Message α) : Prop where
  unpacks : ∀ b : Buffer, b.Valid → b.Readable m.bytes →
    ∃ b', b'.Valid ∧ (unpack.run b = .ok m.object b' ∨ ∃ e, unpack.run b = .error e b')
  fits : m.bytes.length ≤ 10000

/-- What holds at each phase while every read fails or returns a whole message. -/
def PhaseInvariant (unpack : Action Buffer α) (s : ReceivingLoop α) : Prop :=
  match s.phase with
  | .received => s.measurer.count = s.objects.length ∧
    ∃ m, Deliverable unpack m ∧ s.buffer.Readable m.bytes ∧
      s.reads = s.objects.map some ++ [some m.object]
  | .reset => s.measurer.count = s.objects.length ∧ s.reads = s.objects.map some ∧
    s.buffer.bufReadPtr = s.buffer.buf
  | .unpacked _ => s.measurer.count + 1 = s.objects.length ∧ s.reads = s.objects.map some
  | .failed _ => s.measurer.count = s.objects.length ∧
    ∃ outcome, s.reads = s.objects.map some ++ [outcome]
  | _ => s.measurer.count = s.objects.length ∧ s.reads = s.objects.map some

structure Genuine (unpack : Action Buffer α) (s : ReceivingLoop α) : Prop where
  valid : s.buffer.Valid
  unsent : ∀ m ∈ s.unsent, Deliverable unpack m
  inFlight : ∀ m ∈ s.inFlight, Deliverable unpack m
  phase : PhaseInvariant unpack s

section Invariant
variable {unpack : Action Buffer α} {record : Measurer → α → TimeTick → Measurer}
variable {s s' : ReceivingLoop α}

theorem noPhantoms_of_reads {t : List (Option α)}
    (hreads : s.reads = s.objects.map some ++ t) (hticks : s.measurer.count ≤ s.objects.length)
    (hends : none ∈ t → ∃ e, s.phase = .failed e) : NoPhantoms s := by
  constructor
  · unfold received
    rw [hreads, List.filterMap_append, List.filterMap_map, List.length_append]
    have hall : s.objects.filterMap (id ∘ some) = s.objects := List.filterMap_some
    rw [hall]
    exact Nat.le_add_right_of_le hticks
  · intro i object hget
    have hlt := (List.getElem?_eq_some_iff.mp hget).1
    rw [hreads, List.getElem?_append_left (by simpa using hlt), List.getElem?_map, hget]
    rfl
  · intro hmem
    rw [hreads] at hmem
    rcases List.mem_append.mp hmem with hobjects | htail
    · obtain ⟨object, _, heq⟩ := List.mem_map.mp hobjects
      cases heq
    · exact hends htail

theorem Genuine.noPhantoms (h : Genuine unpack s) : NoPhantoms s := by
  have hphase := h.phase
  unfold PhaseInvariant at hphase
  split at hphase
  · obtain ⟨hcount, _, _, _, hreads⟩ := hphase
    exact noPhantoms_of_reads hreads (Nat.le_of_eq hcount) (by simp)
  · obtain ⟨hcount, hreads, _⟩ := hphase
    exact noPhantoms_of_reads (t := []) (by simpa using hreads) (Nat.le_of_eq hcount) (by simp)
  · obtain ⟨hcount, hreads⟩ := hphase
    exact noPhantoms_of_reads (t := []) (by simpa using hreads) (by omega) (by simp)
  · rename_i e heq
    obtain ⟨hcount, _, hreads⟩ := hphase
    exact noPhantoms_of_reads hreads (Nat.le_of_eq hcount) fun _ => ⟨e, heq⟩
  · obtain ⟨hcount, hreads⟩ := hphase
    exact noPhantoms_of_reads (t := []) (by simpa using hreads) (Nat.le_of_eq hcount) (by simp)

theorem genuine_initial {buffer : Buffer} (hb : buffer.Valid) (chunksTotalCount : UInt64)
    {messages : List (Message α)} (hmessages : ∀ m ∈ messages, Deliverable unpack m) :
    Genuine unpack (initial buffer chunksTotalCount messages) where
  valid := hb
  unsent := hmessages
  inFlight := fun _ hm => absurd hm List.not_mem_nil
  phase := ⟨rfl, rfl⟩

theorem genuine_peerSends (h : Genuine unpack s) (hstep : s.peerSends = some s') :
    Genuine unpack s' := by
  unfold peerSends at hstep
  split at hstep
  · cases hstep
  · rename_i m unsent hunsent
    split at hstep
    · cases hstep
    · cases hstep
      have hm : Deliverable unpack m := h.unsent m (hunsent ▸ List.mem_cons_self)
      refine { h with unsent := ?_, inFlight := ?_ }
      · intro m' hmem
        exact h.unsent m' (hunsent ▸ List.mem_cons_of_mem _ hmem)
      · intro m' hmem
        rcases List.mem_append.mp hmem with hold | hnew
        · exact h.inFlight m' hold
        · rw [List.mem_singleton.mp hnew]
          exact hm

theorem genuine_peerCloses (h : Genuine unpack s) (hstep : s.peerCloses = some s') :
    Genuine unpack s' := by
  cases hstep
  exact { h with }

theorem genuine_test (h : Genuine unpack s) (hstep : s.test = some s') : Genuine unpack s' := by
  have hphase := h.phase
  unfold PhaseInvariant at hphase
  unfold test at hstep
  split at hstep
  · rename_i hhead
    rw [hhead] at hphase
    cases hstep
    cases hfull : s.measurer.isFull with
    | true => exact { h with phase := hphase }
    | false => exact { h with phase := hphase }
  · cases hstep

theorem genuine_resetBuffer (h : Genuine unpack s) (hstep : s.resetBuffer = some s') :
    Genuine unpack s' := by
  have hphase := h.phase
  unfold PhaseInvariant at hphase
  unfold resetBuffer at hstep
  split at hstep
  · rename_i hentered
    rw [hentered] at hphase
    cases hstep
    obtain ⟨hcount, hreads⟩ := hphase
    exact { h with valid := h.valid.reset, phase := ⟨hcount, hreads, rfl⟩ }
  · cases hstep

theorem genuine_readFails (h : Genuine unpack s) (hstep : s.readFails = some s') :
    Genuine unpack s' := by
  have hphase := h.phase
  unfold PhaseInvariant at hphase
  unfold readFails at hstep
  split at hstep
  · rename_i hreset
    rw [hreset] at hphase
    obtain ⟨hcount, hreads, _⟩ := hphase
    cases hstep
    exact { h with phase := ⟨hcount, none, congrArg (· ++ [none]) hreads⟩ }
  · cases hstep

/-- The message lies at the read pointer, which Reset moved to the start. -/
theorem genuine_readMessage (h : Genuine unpack s) (hstep : s.readMessage = some s') :
    Genuine unpack s' := by
  have hphase := h.phase
  unfold PhaseInvariant at hphase
  unfold readMessage at hstep
  split at hstep
  · rename_i m inFlight hreset hinFlight
    rw [hreset] at hphase
    obtain ⟨hcount, hreads, hptr⟩ := hphase
    have hm : Deliverable unpack m := h.inFlight m (hinFlight ▸ List.mem_cons_self)
    cases hstep
    refine { valid := ?_, unsent := h.unsent, inFlight := ?_, phase := ?_ }
    · exact Buffer.fill_valid h.valid m.bytes
    · intro m' hmem
      exact h.inFlight m' (hinFlight ▸ List.mem_cons_of_mem _ hmem)
    · exact ⟨hcount, m, hm, Buffer.readable_fill h.valid hptr hm.fits,
        congrArg (· ++ [some m.object]) hreads⟩
  · cases hstep

theorem genuine_unpackObject (h : Genuine unpack s) (hstep : s.unpackObject unpack = some s') :
    Genuine unpack s' := by
  have hphase := h.phase
  unfold PhaseInvariant at hphase
  unfold unpackObject at hstep
  split at hstep
  · rename_i hreceived
    rw [hreceived] at hphase
    obtain ⟨hcount, m, hm, hreadable, hreads⟩ := hphase
    obtain ⟨buffer, hvalid, hok | ⟨e, herror⟩⟩ := hm.unpacks _ h.valid hreadable
    · rw [hok] at hstep
      cases hstep
      refine { h with valid := hvalid, phase := ⟨?_, ?_⟩ }
      · rw [List.length_append]
        exact congrArg (· + 1) hcount
      · rw [hreads, List.map_append]
        rfl
    · rw [herror] at hstep
      cases hstep
      exact { h with valid := hvalid, phase := ⟨hcount, _, hreads⟩ }
  · cases hstep

theorem genuine_recordTick
    (hrecord : ∀ m object now, (record m object now).count = m.count + 1)
    (h : Genuine unpack s) {now : TimeTick} (hstep : s.recordTick record now = some s') :
    Genuine unpack s' := by
  have hphase := h.phase
  unfold PhaseInvariant at hphase
  unfold recordTick at hstep
  split at hstep
  · rename_i object hunpacked
    rw [hunpacked] at hphase
    obtain ⟨hcount, hreads⟩ := hphase
    cases hstep
    refine { h with phase := ⟨?_, hreads⟩ }
    rw [hrecord]
    exact hcount
  · cases hstep

theorem genuine_step (hrecord : ∀ m object now, (record m object now).count = m.count + 1)
    (h : Genuine unpack s) {e : LoopEvent} (he : e ≠ .readEnd)
    (hstep : Steps unpack record s e s') : Genuine unpack s' := by
  cases e with
  | peerSends => exact genuine_peerSends h hstep
  | peerCloses => exact genuine_peerCloses h hstep
  | test => exact genuine_test h hstep
  | resetBuffer => exact genuine_resetBuffer h hstep
  | readFails => exact genuine_readFails h hstep
  | readMessage => exact genuine_readMessage h hstep
  | readEnd => exact absurd rfl he
  | unpack => exact genuine_unpackObject h hstep
  | tick now => exact genuine_recordTick hrecord h hstep

theorem Genuine.of_run (hrecord : ∀ m object now, (record m object now).count = m.count + 1)
    (h : Genuine unpack s) {events : List LoopEvent}
    (hrun : Run (Steps unpack record) s events s') (hevents : .readEnd ∉ events) :
    Genuine unpack s' := by
  have hinv : .readEnd ∉ events → Genuine unpack s' := by
    apply hrun.invariant_history (I := fun events s => .readEnd ∉ events → Genuine unpack s)
    · exact fun _ => h
    · intro es t e u ih hstep hnot
      rw [List.mem_append, not_or, List.mem_singleton] at hnot
      exact genuine_step hrecord (ih hnot.1) (Ne.symm hnot.2) hstep
  exact hinv hevents

/-- After a read of nothing the loop goes on to Unpack. -/
theorem not_noPhantoms_readEnd (hstep : s.readEnd = some s') : ¬ NoPhantoms s' := by
  intro hphantoms
  unfold readEnd at hstep
  split at hstep
  · split at hstep
    · cases hstep
      obtain ⟨e, hphase⟩ := hphantoms.ends (List.mem_append_right _ List.mem_cons_self)
      cases hphase
    · cases hstep
  · cases hstep

/-- Along a run from a genuine state there are no phantoms exactly when no read returns 0. -/
theorem Genuine.noPhantoms_iff
    (hrecord : ∀ m object now, (record m object now).count = m.count + 1)
    (h : Genuine unpack s) {events : List LoopEvent}
    (hrun : Run (Steps unpack record) s events s') :
    (∀ es u, es <+: events → Run (Steps unpack record) s es u → NoPhantoms u) ↔
      .readEnd ∉ events := by
  constructor
  · intro hall hmem
    obtain ⟨es, fs, rfl⟩ := List.append_of_mem hmem
    obtain ⟨t, hbefore, hrest⟩ := Run.split hrun
    have hlabels : Run (Steps unpack record) t ([.readEnd] ++ fs) s' := hrest
    obtain ⟨u, hread, _⟩ := Run.split hlabels
    have hpre : es ++ [LoopEvent.readEnd] <+: es ++ .readEnd :: fs := ⟨fs, by simp⟩
    exact not_noPhantoms_readEnd (Run.step_of_single hread) (hall _ u hpre (hbefore.trans hread))
  · intro hnot es u hpre hes
    exact (h.of_run hrecord hes fun hmem => hnot (hpre.subset hmem)).noPhantoms

end Invariant

/-! The two kinds of messages. -/

theorem deliverable_of_packed {pack : α → Action Buffer Unit} {unpack : Action Buffer α}
    {encode : α → List UInt8} (hwrites : ∀ object, Buffer.Writes (pack object) (encode object))
    (hreads : ∀ object (b : Buffer), b.Valid → b.Readable (encode object) →
      ∃ b', b'.Valid ∧ (unpack.run b = .ok object b' ∨ ∃ e, unpack.run b = .error e b'))
    {m : Message α} (hm : m.Packed pack) : Deliverable unpack m := by
  obtain ⟨b, b', hb, hrun⟩ := hm
  obtain ⟨hbytes, hfit⟩ := sendRound_ok (hwrites m.object) hb hrun
  rw [← hbytes] at hfit
  exact ⟨fun b hb hbs => hreads m.object b hb (hbytes ▸ hbs), hfit⟩

theorem deliverable_string {peer host : Endianness} {type : ConnectionType}
    (hends : type = .kNetSocket ∨ peer = host) (alloc : UInt64 → Bool) {m : Message StdString}
    (hm : m.Packed ((createPacker peer type).serializeString peer)) :
    Deliverable ((createPacker host type).deserializeString host alloc) m := by
  apply deliverable_of_packed (fun object => Packer.serialize_writes peer _ (.string object)) ?_ hm
  intro object b hb hbs
  rw [fieldBytes_ends hends] at hbs
  cases halloc : alloc object.size with
  | true =>
    have hread := Packer.deserializeString_reads host (createPacker host type) alloc object halloc
    exact ⟨_, Buffer.skip_valid hb hbs.inside, Or.inl (hread b hb hbs)⟩
  | false =>
    have hthrow := Packer.deserializeString_throws host (createPacker host type) alloc object
      halloc hb hbs
    have hinside := hbs.inside
    rw [Packer.fieldBytes_length, Field.encodedSize] at hinside
    exact ⟨_, Buffer.skip_valid hb (by omega), Or.inr ⟨_, hthrow⟩⟩

theorem deliverable_timePoint {peer host : Endianness} {type : ConnectionType}
    (hends : type = .kNetSocket ∨ peer = host) {m : Message TimeTick}
    (hm : m.Packed ((createPacker peer type).serializeTimePoint peer)) :
    Deliverable ((createPacker host type).deserializeTimePoint host) m := by
  apply deliverable_of_packed (serializeTimePoint_writes peer type) ?_ hm
  intro tick b hb hbs
  have hread := deserializeTimePoint_reads host type
    (objectBytes_length (wireOrder peer type) 8 tick.toUInt64.toNat) b hb hbs
  rw [(tickOf_objectBytes _ _ tick).mpr (Or.inl (wireOrder_ends hends))] at hread
  exact ⟨_, Buffer.skip_valid hb hbs.inside, Or.inl hread⟩

theorem consumerRecord_count {β : Type} (m : Measurer) (object : β) (now : TimeTick) :
    (consumerRecord m object now).count = m.count + 1 := Measurer.emplaceBack_count m now

theorem analyzerRecord_count (m : Measurer) (tp now : TimeTick) :
    (analyzerRecord m tp now).count = m.count + 1 := Measurer.emplaceBack_count m tp

/-- In every run of `Consumer::Run`'s loop, and of an Analyzer worker's, against a peer
that sends packed messages and closes anywhere: no state reached has a phantom
exactly when no read of the run returned 0. -/
theorem noPhantoms_iff_no_empty_read (peer host : Endianness) (type : ConnectionType)
    (hends : type = .kNetSocket ∨ peer = host) (alloc : UInt64 → Bool)
    (chunksTotalCount : UInt64) {buffer : Buffer} (hb : buffer.Valid) :
    (∀ messages : List (Message StdString),
      (∀ m ∈ messages, m.Packed ((createPacker peer type).serializeString peer)) →
      let Moves := Steps ((createPacker host type).deserializeString host alloc) consumerRecord
      ∀ events t, Run Moves (initial buffer chunksTotalCount messages) events t →
        ((∀ es u, es <+: events → Run Moves (initial buffer chunksTotalCount messages) es u →
          NoPhantoms u) ↔ .readEnd ∉ events)) ∧
    (∀ messages : List (Message TimeTick),
      (∀ m ∈ messages, m.Packed ((createPacker peer type).serializeTimePoint peer)) →
      let Moves := Steps ((createPacker host type).deserializeTimePoint host) analyzerRecord
      ∀ events t, Run Moves (initial buffer chunksTotalCount messages) events t →
        ((∀ es u, es <+: events → Run Moves (initial buffer chunksTotalCount messages) es u →
          NoPhantoms u) ↔ .readEnd ∉ events)) := by
  constructor
  · intro messages hmessages Moves events t hrun
    have hgenuine := genuine_initial hb chunksTotalCount
      fun m hm => deliverable_string hends alloc (hmessages m hm)
    exact hgenuine.noPhantoms_iff consumerRecord_count hrun
  · intro messages hmessages Moves events t hrun
    have hgenuine := genuine_initial hb chunksTotalCount
      fun m hm => deliverable_timePoint hends (hmessages m hm)
    exact hgenuine.noPhantoms_iff analyzerRecord_count hrun

/-! A peer that sends one string and closes, against a consumer that expects two. -/

def sampleMessage : Message StdString where
  object := ⟨[104, 105], by decide⟩
  bytes := [2, 0, 0, 0, 0, 0, 0, 0, 104, 105]

def sampleEvents : List LoopEvent :=
  [.peerSends, .peerCloses, .test, .resetBuffer, .readMessage, .unpack, .tick 5,
    .test, .resetBuffer, .readEnd, .unpack, .tick 6]

def sampleStart : ReceivingLoop StdString :=
  initial (Buffer.new (bytesAt []) 4096) 2 [sampleMessage]

def sampleUnpack : Action Buffer StdString :=
  (createPacker .kLittle .kUnixSocket).deserializeString .kLittle fun _ => true

theorem sampleMessage_packed :
    sampleMessage.Packed ((createPacker .kLittle .kUnixSocket).serializeString .kLittle) := by
  have hvalid : (Buffer.new (bytesAt []) 4096).Valid := Buffer.valid_new_page _
  have hwrites := Packer.serialize_writes .kLittle (createPacker .kLittle .kUnixSocket)
    (.string sampleMessage.object)
  obtain ⟨b', hrun, _⟩ := sendRound_writes hwrites (by decide) hvalid
  exact ⟨_, b', hvalid, hrun⟩

theorem noPhantoms_iff_no_empty_read_sample :
    ¬ ∀ es u, es <+: sampleEvents →
      Run (Steps sampleUnpack consumerRecord) sampleStart es u → NoPhantoms u := by
  intro hall
  have hvalid : (Buffer.new (bytesAt []) 4096).Valid := Buffer.valid_new_page _
  have hsome : (sampleEvents.foldlM (step sampleUnpack consumerRecord) sampleStart).isSome := rfl
  obtain ⟨t, hrun⟩ := Option.isSome_iff_exists.mp hsome
  have hmessages : ∀ m ∈ [sampleMessage],
      m.Packed ((createPacker .kLittle .kUnixSocket).serializeString .kLittle) := by
    intro m hm
    rw [List.mem_singleton.mp hm]
    exact sampleMessage_packed
  have h := (noPhantoms_iff_no_empty_read .kLittle .kLittle .kUnixSocket (Or.inr rfl)
    (fun _ => true) 2 hvalid).1 [sampleMessage] hmessages sampleEvents t (Run.of_foldlM hrun)
  exact h.mp hall (by decide)

/-- The second read returns 0, the first message is unpacked again and a tick recorded. -/
theorem closed_peer_records_phantom_tick :
    sampleMessage.Packed ((createPacker .kLittle .kUnixSocket).serializeString .kLittle) ∧
      ∃ t, Run (Steps sampleUnpack consumerRecord) sampleStart sampleEvents t ∧
        t.measurer.count = 2 ∧ t.received.length = 1 := by
  refine ⟨sampleMessage_packed, ?_⟩
  have hcounts : (sampleEvents.foldlM (step sampleUnpack consumerRecord) sampleStart).map
      (fun t => (t.measurer.count, t.received.length)) = some (2, 1) := rfl
  obtain ⟨t, hrun, hboth⟩ := Option.map_eq_some_iff.mp hcounts
  exact ⟨t, Run.of_foldlM hrun, congrArg Prod.fst hboth, congrArg Prod.snd hboth⟩

end ReceivingLoop
end IpcChecker
