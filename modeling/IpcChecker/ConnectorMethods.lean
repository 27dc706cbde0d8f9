import IpcChecker.Connectors

/-!
# What the methods of connectors acquire and lose

Each constructor is run on all answers of the system. One that meets the condition
below either acquires nothing or leaves a connector that holds what it acquired; one
that does not loses a descriptor or an object. The same is said of `Connect`, `Accept`
and the destructors.
-/

namespace IpcChecker
open Shared
set_option autoImplicit false

namespace Program

/-- Where a constructor that has acquired something gets to its end, with the name it will unlink. -/
def ConstructKeeps (p : Program) (kind : ConnectorKind) (connectionId : List UInt8)
    (bufferSize : Option UInt64) (answers : Answers) : Prop :=
  match kind with
  | .sharedMemoryServer =>
    p.resources.createErrno (.shm (cStr connectionId)) (answers.errno .shmOpen) = none →
      (SharedMemoryServer.requestedCapacity bufferSize).toNat + 3 < 2 ^ 32 ∧
        answers.ok .ftruncate ∧ answers.ok .mmap
  | .pipeServer =>
    let errno := p.resources.createErrno (.file (cStr (tmpPath connectionId)))
      (answers.errno .mkfifo)
    (errno = none → answers.ok .open ∧ answers.ok .fcntl) ∧
      (errno = some .eexist → answers.ok .open → answers.ok .fcntl)
  | .unixSocketServer =>
    let path := sunPath (tmpPath connectionId) answers.sunPathEnd
    answers.ok .socket → path = cStr (tmpPath connectionId) ∧
      p.resources.createErrno (.file path) (answers.errno .bind) = none ∧ answers.ok .listen
  | .netSocketServer => answers.ok .socket → answers.ok .bind ∧ answers.ok .listen
  | _ => True

/-- Where a call of Connect neither overwrites a descriptor nor opens one for nothing. -/
def ConnectKeeps (c : Connector) (answers : Answers) : Prop :=
  match c.kind with
  | .sharedMemoryClient => c.fd = none
  | .pipeClient => c.fd = none
  | .unixSocketClient => answers.ok .open → cStr c.name = []
  | _ => True

/-- Where a step loses nothing. -/
def Keeps (p : Program) : ConnectorEvent → Prop
  | .construct kind connectionId bufferSize answers =>
    p.ConstructKeeps kind connectionId bufferSize answers
  | .connect i answers => ∀ c, p.live[i]? = some c → ConnectKeeps c answers
  | .accept i answers => ∀ c, p.live[i]? = some c → c.fd ≠ none → answers.ok .accept →
    answers.ok .close
  | .move _ => True
  | .destroy i answers => ∀ c, p.live[i]? = some c → ∀ object ∈ p.resources.objects,
    object.creator = some c.origin → c.unlinks = some object.name → answers.ok .unlink

end Program

/-! The methods, run. -/

namespace Frame

def opened (frame : Frame) : Frame :=
  { frame with
    resources.openedBy := frame.resources.openedBy ++ [frame.self.origin]
    self.fd := some frame.resources.openedBy.length }

def named (frame : Frame) (name : List UInt8) : Frame := { frame with self.name := name }

def unopened (frame : Frame) : Frame := { frame with self.fd := none }

def created (frame : Frame) (name : ObjectName) : Frame :=
  { frame with
    resources.objects := frame.resources.objects ++ [⟨name, some frame.self.origin⟩] }

end Frame

section Runs
variable {α : Type} (answers : Answers) (frame : Frame)

@[simp] theorem Frame.named_createErrno (name : List UInt8) :
    (frame.named name).resources.createErrno = frame.resources.createErrno := rfl

@[simp] theorem Frame.opened_createErrno :
    frame.opened.resources.createErrno = frame.resources.createErrno := rfl

theorem run_setName_bind (name : List UInt8) (f : Unit → Action Frame α) :
    (Frame.setName name >>= f).run frame = (f ()).run (frame.named name) := rfl

theorem run_descriptor_bind (ok : Bool) (f : FileDescriptor → Unit → Action Frame α) :
    (Frame.descriptor ok >>= fun fd => Frame.setFd fd >>= f fd).run frame =
      if ok then (f (some frame.resources.openedBy.length) ()).run frame.opened
      else (f none ()).run frame.unopened := by
  cases ok <;> rfl

theorem run_create_bind (name : ObjectName) (errno : Option Errno)
    (f : Option Errno → Action Frame α) :
    (Frame.create name errno >>= f).run frame =
      match frame.resources.createErrno name errno with
      | none => (f none).run (frame.created name)
      | some e => (f (some e)).run frame := by
  unfold Frame.create
  cases herrno : frame.resources.createErrno name errno with
  | none =>
    apply run_bind_ok
    rw [run_get_bind]
    simp only [herrno]
    rfl
  | some e =>
    apply run_bind_ok
    rw [run_get_bind]
    simp only [herrno]
    rfl

theorem run_openSocket_bind (f : Unit → Action Frame α) :
    (openSocket answers >>= f).run frame =
      if answers.ok .socket then (f ()).run frame.opened
      else .error (.exception "socket() failed") frame.unopened := by
  unfold openSocket
  generalize answers.ok .socket = socket
  cases socket <;> rfl

theorem openSocket_run : (openSocket answers).run frame =
    if answers.ok .socket then .ok () frame.opened
    else .error (.exception "socket() failed") frame.unopened := by
  unfold openSocket
  generalize answers.ok .socket = socket
  cases socket <;> rfl

theorem NetSocketServer.construct_run : (NetSocketServer.construct answers).run frame =
    if answers.ok .socket then
      if answers.ok .bind then
        if answers.ok .listen then .ok () frame.opened
        else .error (.exception "listen() failed") frame.opened
      else .error (.exception "bind() failed") frame.opened
    else .error (.exception "socket() failed") frame.unopened := by
  unfold NetSocketServer.construct
  rw [run_openSocket_bind]
  generalize answers.ok .bind = bind
  generalize answers.ok .listen = listen
  cases bind <;> cases listen <;> rfl

theorem UnixSocketServer.construct_run (connectionId : List UInt8) :
    (UnixSocketServer.construct answers connectionId).run frame =
    let start := frame.named (tmpPath connectionId)
    let path := ObjectName.file (sunPath (tmpPath connectionId) answers.sunPathEnd)
    if answers.ok .socket then
      match frame.resources.createErrno path (answers.errno .bind) with
      | none =>
        if answers.ok .listen then .ok () (start.opened.created path)
        else .error (.exception "listen() failed") (start.opened.created path)
      | some _ => .error (.exception "bind() failed") start.opened
    else .error (.exception "socket() failed") start.unopened := by
  unfold UnixSocketServer.construct
  rw [run_setName_bind, run_openSocket_bind, run_create_bind, Frame.opened_createErrno,
    Frame.named_createErrno]
  dsimp only
  generalize answers.ok .listen = listen
  generalize frame.resources.createErrno _ _ = errno
  cases errno <;> cases listen <;> rfl

theorem PipeServer.construct_run (connectionId : List UInt8) :
    (PipeServer.construct answers connectionId).run frame =
    let start := frame.named (tmpPath connectionId)
    let path := ObjectName.file (cStr (tmpPath connectionId))
    match frame.resources.createErrno path (answers.errno .mkfifo) with
    | none =>
      if answers.ok .open then
        if answers.ok .fcntl then .ok () (start.created path).opened
        else .error (.exception "fcntl() failed") (start.created path).opened
      else .error (.exception "open() failed") (start.created path).unopened
    | some .eexist =>
      if answers.ok .open then
        if answers.ok .fcntl then .ok () start.opened
        else .error (.exception "fcntl() failed") start.opened
      else .error (.exception "open() failed") start.unopened
    | some _ => .error (.exception "mkfifo() failed") start := by
  unfold PipeServer.construct Frame.openNamed
  rw [run_setName_bind, run_create_bind, Frame.named_createErrno]
  dsimp only
  generalize answers.ok .fcntl = fcntl
  generalize answers.ok .open = isOpen
  generalize frame.resources.createErrno _ _ = errno
  rcases errno with _ | _ | _ | _ | _ <;> cases isOpen <;> cases fcntl <;> rfl

theorem SharedMemoryServer.construct_run (connectionId : List UInt8)
    (bufferSize : Option UInt64) :
    (SharedMemoryServer.construct answers connectionId bufferSize).run frame =
    let start := frame.named connectionId
    let name := ObjectName.shm (cStr connectionId)
    match frame.resources.createErrno name (answers.errno .shmOpen) with
    | none =>
      if (requestedCapacity bufferSize).toNat + 3 < 2 ^ 32 then
        if answers.ok .ftruncate then
          if answers.ok .mmap then .ok () (start.created name).opened
          else .error (.exception "mmap() failed") (start.created name).opened
        else .error (.exception "ftruncate() failed") (start.created name).opened
      else .error .assertion (start.created name).opened
    | some _ => .error (.exception "shm_open() failed") start.unopened := by
  unfold SharedMemoryServer.construct
  rw [run_setName_bind, run_create_bind, Frame.named_createErrno]
  dsimp only
  generalize answers.ok .ftruncate = ftruncate
  generalize answers.ok .mmap = mmap
  generalize frame.resources.createErrno _ _ = errno
  cases errno with
  | some _ => rfl
  | none =>
    dsimp only
    rcases Nat.lt_or_ge ((requestedCapacity bufferSize).toNat + 3) (2 ^ 32) with hfits | hover
    · obtain ⟨capacity, halign, hnat⟩ := SPSCRingBuffer.alignCapacity_fits hfits
      have h4 : capacity.toNat % 4 = 0 := by
        rw [hnat]
        exact Nat.mul_mod_left _ 4
      simp only [if_pos hfits, halign, pure_bind, SPSCRingBuffer.new_eq_initial h4]
      cases ftruncate <;> cases mmap <;> rfl
    · simp only [if_neg (Nat.not_lt.mpr hover), SPSCRingBuffer.alignCapacity_overflows hover]
      rfl

end Runs

theorem Resources.bytes_of_createErrno (r : Resources) {name : ObjectName}
    {errno : Option Errno} (h : r.createErrno name errno = none) : name.bytes ≠ [] := by
  intro hempty
  unfold Resources.createErrno at h
  rw [if_pos hempty] at h
  split at h
  · contradiction
  · cases h

/-! What a constructor comes to. -/

namespace Frame

/-- The connector of `frame'` holds what was acquired since `frame`. -/
structure Acquires (frame frame' : Frame) : Prop where
  origin : frame'.self.origin = frame.self.origin
  closed : frame'.resources.closed = frame.resources.closed
  openedBy : (frame'.resources.openedBy = frame.resources.openedBy ∧ frame'.self.fd = none) ∨
    (frame'.resources.openedBy = frame.resources.openedBy ++ [frame.self.origin] ∧
      frame'.self.fd = some frame.resources.openedBy.length)
  objects : ∀ object ∈ frame'.resources.objects, object ∈ frame.resources.objects ∨
    object.creator = some frame.self.origin ∧ object.name.bytes ≠ [] ∧
      frame'.self.unlinks = some object.name

/-- Either nothing was acquired or the new connector holds it. -/
def Delivers (frame : Frame) : EStateM.Result Failure Frame Unit → Prop
  | .error _ frame' => frame'.resources = frame.resources
  | .ok _ frame' => frame.Acquires frame'

/-- Something was acquired that no connector holds or will unlink. -/
def Loses (frame : Frame) : EStateM.Result Failure Frame Unit → Prop
  | .error _ frame' => frame'.resources.closed = frame.resources.closed ∧
      (frame.resources.openedBy.length < frame'.resources.openedBy.length ∨
        ∃ object ∈ frame'.resources.objects, object.creator = some frame.self.origin)
  | .ok _ frame' => frame'.self.origin = frame.self.origin ∧
      ∃ object ∈ frame'.resources.objects, object.creator = some frame.self.origin ∧
        frame'.self.unlinks ≠ some object.name

theorem acquires_opened {frame start : Frame} (hr : start.resources = frame.resources)
    (ho : start.self.origin = frame.self.origin) : frame.Acquires start.opened where
  origin := ho
  closed := by
    change start.resources.closed = _
    rw [hr]
  openedBy := by
    refine Or.inr ⟨?_, ?_⟩
    · change start.resources.openedBy ++ [start.self.origin] = _
      rw [hr, ho]
    · change some start.resources.openedBy.length = _
      rw [hr]
  objects := fun object hmem => Or.inl (hr ▸ hmem)

theorem Acquires.created {frame frame' : Frame} (h : frame.Acquires frame') {name : ObjectName}
    {errno : Option Errno} (herrno : frame.resources.createErrno name errno = none)
    (hunlinks : frame'.self.unlinks = some name) : frame.Acquires (frame'.created name) where
  origin := h.origin
  closed := h.closed
  openedBy := h.openedBy
  objects := by
    intro object hmem
    rcases List.mem_append.mp hmem with hold | hnew
    · exact h.objects object hold
    · obtain rfl := List.mem_singleton.mp hnew
      exact Or.inr ⟨congrArg some h.origin, frame.resources.bytes_of_createErrno herrno, hunlinks⟩

theorem loses_descriptor {frame frame' : Frame} (e : Failure) {origin : Nat}
    (hclosed : frame'.resources.closed = frame.resources.closed)
    (hopened : frame'.resources.openedBy = frame.resources.openedBy ++ [origin]) :
    frame.Loses (.error e frame') := by
  refine ⟨hclosed, Or.inl ?_⟩
  rw [hopened, List.length_append]
  exact Nat.lt_succ_self _

theorem loses_object {frame frame' : Frame} (e : Failure) {name : ObjectName}
    (hclosed : frame'.resources.closed = frame.resources.closed)
    (hcreated : frame'.resources.objects =
      frame.resources.objects ++ [⟨name, some frame.self.origin⟩]) :
    frame.Loses (.error e frame') := by
  refine ⟨hclosed, Or.inr ⟨⟨name, some frame.self.origin⟩, ?_, rfl⟩⟩
  rw [hcreated]
  exact List.mem_append_right _ (List.mem_singleton_self _)

end Frame

namespace Program
variable {p : Program} {connectionId : List UInt8} {bufferSize : Option UInt64} {answers : Answers}

theorem netSocketServer_delivers
    (h : p.ConstructKeeps .netSocketServer connectionId bufferSize answers) :
    (p.newFrame .netSocketServer).Delivers
      ((Connector.construct answers .netSocketServer connectionId bufferSize).run
        (p.newFrame .netSocketServer)) := by
  unfold ConstructKeeps at h
  simp only [Connector.construct, NetSocketServer.construct_run]
  split
  · rename_i hsocket
    obtain ⟨hbind, hlisten⟩ := h hsocket
    rw [if_pos hbind, if_pos hlisten]
    exact Frame.acquires_opened rfl rfl
  · exact rfl

theorem pipeServer_delivers (h : p.ConstructKeeps .pipeServer connectionId bufferSize answers) :
    (p.newFrame .pipeServer).Delivers
      ((Connector.construct answers .pipeServer connectionId bufferSize).run
        (p.newFrame .pipeServer)) := by
  unfold ConstructKeeps at h
  obtain ⟨hmade, hthere⟩ := h
  have hopened : (p.newFrame .pipeServer).Acquires
      ((p.newFrame .pipeServer).named (tmpPath connectionId)).opened :=
    Frame.acquires_opened rfl rfl
  simp only [Connector.construct, PipeServer.construct_run]
  split
  · rename_i herrno
    obtain ⟨hopen, hfcntl⟩ := hmade herrno
    rw [if_pos hopen, if_pos hfcntl]
    exact hopened.created herrno rfl
  · rename_i herrno
    split
    · rename_i hopen
      rw [if_pos (hthere herrno hopen)]
      exact hopened
    · exact rfl
  · exact rfl

theorem sharedMemoryServer_delivers
    (h : p.ConstructKeeps .sharedMemoryServer connectionId bufferSize answers) :
    (p.newFrame .sharedMemoryServer).Delivers
      ((Connector.construct answers .sharedMemoryServer connectionId bufferSize).run
        (p.newFrame .sharedMemoryServer)) := by
  unfold ConstructKeeps at h
  have hopened : (p.newFrame .sharedMemoryServer).Acquires
      ((p.newFrame .sharedMemoryServer).named connectionId).opened :=
    Frame.acquires_opened rfl rfl
  simp only [Connector.construct, SharedMemoryServer.construct_run]
  split
  · rename_i herrno
    obtain ⟨hfits, htruncate, hmmap⟩ := h herrno
    rw [if_pos hfits, if_pos htruncate, if_pos hmmap]
    exact hopened.created herrno rfl
  · exact rfl

theorem unixSocketServer_delivers
    (h : p.ConstructKeeps .unixSocketServer connectionId bufferSize answers) :
    (p.newFrame .unixSocketServer).Delivers
      ((Connector.construct answers .unixSocketServer connectionId bufferSize).run
        (p.newFrame .unixSocketServer)) := by
  unfold ConstructKeeps at h
  have hopened : (p.newFrame .unixSocketServer).Acquires
      ((p.newFrame .unixSocketServer).named (tmpPath connectionId)).opened :=
    Frame.acquires_opened rfl rfl
  simp only [Connector.construct, UnixSocketServer.construct_run]
  split
  · rename_i hsocket
    obtain ⟨hpath, herrno, hlisten⟩ := h hsocket
    split
    · rw [if_pos hlisten]
      exact hopened.created herrno
        (congrArg (fun path => some (ObjectName.file path)) hpath.symm)
    · rename_i hfail
      rw [show (p.newFrame .unixSocketServer).resources.createErrno _ _ = none from herrno] at hfail
      cases hfail
  · exact rfl

/-- A constructor that meets the condition loses nothing. -/
theorem construct_delivers {kind : ConnectorKind}
    (h : p.ConstructKeeps kind connectionId bufferSize answers) :
    (p.newFrame kind).Delivers
      ((Connector.construct answers kind connectionId bufferSize).run (p.newFrame kind)) := by
  cases kind with
  | netSocketClient =>
    simp only [Connector.construct, NetSocketClient.construct, openSocket_run]
    split
    · exact Frame.acquires_opened rfl rfl
    · exact rfl
  | netSocketServer => exact netSocketServer_delivers h
  | pipeClient => exact ⟨rfl, rfl, Or.inl ⟨rfl, rfl⟩, fun _ hmem => Or.inl hmem⟩
  | pipeServer => exact pipeServer_delivers h
  | sharedMemoryClient => exact ⟨rfl, rfl, Or.inl ⟨rfl, rfl⟩, fun _ hmem => Or.inl hmem⟩
  | sharedMemoryServer => exact sharedMemoryServer_delivers h
  | unixSocketClient =>
    simp only [Connector.construct, UnixSocketClient.construct, openSocket_run, run_setName_bind]
    split
    · exact Frame.acquires_opened rfl rfl
    · exact rfl
  | unixSocketServer => exact unixSocketServer_delivers h

theorem netSocketServer_loses
    (h : ¬ p.ConstructKeeps .netSocketServer connectionId bufferSize answers) :
    (p.newFrame .netSocketServer).Loses
      ((Connector.construct answers .netSocketServer connectionId bufferSize).run
        (p.newFrame .netSocketServer)) := by
  unfold ConstructKeeps at h
  rw [Classical.not_imp, not_and_or] at h
  obtain ⟨hsocket, hfail⟩ := h
  simp only [Connector.construct, NetSocketServer.construct_run, if_pos hsocket]
  split
  · rename_i hbind
    rw [if_neg (hfail.resolve_left (not_not_intro hbind))]
    exact Frame.loses_descriptor _ rfl rfl
  · exact Frame.loses_descriptor _ rfl rfl

theorem pipeServer_loses (h : ¬ p.ConstructKeeps .pipeServer connectionId bufferSize answers) :
    (p.newFrame .pipeServer).Loses
      ((Connector.construct answers .pipeServer connectionId bufferSize).run
        (p.newFrame .pipeServer)) := by
  unfold ConstructKeeps at h
  simp only [Connector.construct, PipeServer.construct_run]
  split
  · rename_i herrno
    split
    · split
      · rename_i hopen hfcntl
        refine absurd ⟨fun _ => ⟨hopen, hfcntl⟩, fun heexist => ?_⟩ h
        cases herrno.symm.trans heexist
      · exact Frame.loses_descriptor _ rfl rfl
    · exact Frame.loses_object _ rfl rfl
  · rename_i herrno
    split
    · split
      · rename_i _ hfcntl
        refine absurd ⟨fun hnone => ?_, fun _ _ => hfcntl⟩ h
        cases herrno.symm.trans hnone
      · exact Frame.loses_descriptor _ rfl rfl
    · rename_i hopen
      refine absurd ⟨fun hnone => ?_, fun _ hopen' => absurd hopen' hopen⟩ h
      cases herrno.symm.trans hnone
  · rename_i e hother herrno
    refine absurd ⟨fun hnone => ?_, fun heexist => absurd ?_ hother⟩ h
    · cases herrno.symm.trans hnone
    · exact Option.some.inj (herrno.symm.trans heexist)

theorem sharedMemoryServer_loses
    (h : ¬ p.ConstructKeeps .sharedMemoryServer connectionId bufferSize answers) :
    (p.newFrame .sharedMemoryServer).Loses
      ((Connector.construct answers .sharedMemoryServer connectionId bufferSize).run
        (p.newFrame .sharedMemoryServer)) := by
  unfold ConstructKeeps at h
  rw [Classical.not_imp] at h
  obtain ⟨herrno, hfail⟩ := h
  simp only [Connector.construct, SharedMemoryServer.construct_run]
  rw [show (p.newFrame .sharedMemoryServer).resources.createErrno _ _ = none from herrno]
  dsimp only
  split
  · split
    · split
      · rename_i hfits htruncate hmmap
        exact absurd ⟨hfits, htruncate, hmmap⟩ hfail
      · exact Frame.loses_descriptor _ rfl rfl
    · exact Frame.loses_descriptor _ rfl rfl
  · exact Frame.loses_descriptor _ rfl rfl

theorem unixSocketServer_loses
    (h : ¬ p.ConstructKeeps .unixSocketServer connectionId bufferSize answers) :
    (p.newFrame .unixSocketServer).Loses
      ((Connector.construct answers .unixSocketServer connectionId bufferSize).run
        (p.newFrame .unixSocketServer)) := by
  unfold ConstructKeeps at h
  rw [Classical.not_imp] at h
  obtain ⟨hsocket, hfail⟩ := h
  simp only [Connector.construct, UnixSocketServer.construct_run, if_pos hsocket]
  split
  · rename_i herrno
    split
    · rename_i hlisten
      refine ⟨rfl, _, List.mem_append_right _ (List.mem_singleton_self _), rfl, ?_⟩
      intro hunlinks
      exact hfail ⟨(ObjectName.file.inj (Option.some.inj hunlinks)).symm, herrno, hlisten⟩
    · exact Frame.loses_descriptor _ rfl rfl
  · exact Frame.loses_descriptor _ rfl rfl

/-- One that does not meet it loses a descriptor or an object. -/
theorem construct_loses {kind : ConnectorKind}
    (h : ¬ p.ConstructKeeps kind connectionId bufferSize answers) :
    (p.newFrame kind).Loses
      ((Connector.construct answers kind connectionId bufferSize).run (p.newFrame kind)) := by
  cases kind with
  | netSocketClient | pipeClient | sharedMemoryClient | unixSocketClient => exact absurd trivial h
  | netSocketServer => exact netSocketServer_loses h
  | pipeServer => exact pipeServer_loses h
  | sharedMemoryServer => exact sharedMemoryServer_loses h
  | unixSocketServer => exact unixSocketServer_loses h

end Program

/-! What the other methods come to. -/

namespace Frame

/-- The connector has a new descriptor, and has closed what it held before. -/
def renewed (frame : Frame) : Frame :=
  { frame.opened with
    resources.closed := frame.resources.closed ++ frame.self.fd.toList }

theorem opened_eq_renewed {frame : Frame} (h : frame.self.fd = none) :
    frame.opened = frame.renewed := by
  unfold renewed
  rw [h, Option.toList_none, List.append_nil]
  rfl

/-- What a method that meets the condition does with the connector's descriptor. -/
inductive Handles (frame : Frame) : Frame → Prop where
  | same : Handles frame frame
  | renewed : Handles frame frame.renewed

theorem Handles.origin {frame frame' : Frame} (h : frame.Handles frame') :
    frame'.self.origin = frame.self.origin := by
  cases h with
  | same => rfl
  | renewed => rfl

/-- A new descriptor is held by nobody, or the one held before is not closed. -/
inductive Drops (frame : Frame) : Frame → Prop where
  | new {frame' : Frame} (hself : frame'.self = frame.self)
      (hopened : frame'.resources.openedBy = frame.resources.openedBy ++ [frame.self.origin])
      (hclosed : ∀ d ∈ frame'.resources.closed, d ∈ frame.resources.closed ∨ frame.self.fd = some d) :
      Drops frame frame'
  | old {frame' : Frame} {d : Nat} (hfd : frame.self.fd = some d)
      (hclosed : frame'.resources.closed = frame.resources.closed)
      (hopened : frame.resources.openedBy.length ≤ frame'.resources.openedBy.length)
      (hnew : ∀ e, frame'.self.fd = some e → frame.resources.openedBy.length ≤ e) :
      Drops frame frame'

theorem handles_unopened {frame : Frame} (h : frame.self.fd = none) :
    frame.Handles frame.unopened := by
  obtain ⟨resources, self⟩ := frame
  obtain ⟨kind, origin, fd, name⟩ := self
  obtain rfl : fd = none := h
  exact .same

theorem drops_opened {frame : Frame} {d : Nat} (h : frame.self.fd = some d) :
    frame.Drops frame.opened := by
  refine Drops.old h rfl ?_ ?_
  · change _ ≤ (frame.resources.openedBy ++ [frame.self.origin]).length
    rw [List.length_append]
    exact Nat.le_succ _
  · intro e he
    exact (Option.some.inj he).le

theorem drops_unopened {frame : Frame} {d : Nat} (h : frame.self.fd = some d) :
    frame.Drops frame.unopened := by
  refine Drops.old h rfl (Nat.le_refl _) ?_
  intro e he
  cases he

end Frame

section Methods
variable {α : Type} (answers : Answers) (frame : Frame)

theorem run_getName_bind (f : List UInt8 → Action Frame α) :
    (Frame.getName >>= f).run frame = (f frame.self.name).run frame := rfl

theorem SharedMemoryClient.connect_after :
    Frame.after ((SharedMemoryClient.connect answers).run frame) =
      if answers.ok .shmOpen && cStr frame.self.name ≠ [] then frame.opened
      else frame.unopened := by
  unfold SharedMemoryClient.connect Frame.openNamed
  rw [run_getName_bind, run_descriptor_bind]
  change Frame.after (if answers.ok .shmOpen && cStr frame.self.name ≠ [] then _ else _) = _
  rw [apply_ite Frame.after]
  congr 1
  · simp only [reduceCtorEq, if_false]
    generalize answers.ok .fstat = fstat
    generalize answers.ok .mmap = mmap
    generalize answers.isInitialized = isInitialized
    by_cases hsize : answers.stSize = 0
    · simp only [if_pos hsize]
      cases fstat <;> rfl
    · simp only [if_neg hsize]
      cases fstat <;> cases mmap <;> cases isInitialized <;> rfl
  · by_cases herrno : answers.errno .shmOpen = some .enoent
    · simp only [if_pos herrno]
      rfl
    · simp only [if_neg herrno]
      rfl

theorem PipeClient.connect_after :
    Frame.after ((PipeClient.connect answers).run frame) =
      if answers.ok .open && cStr frame.self.name ≠ [] then frame.opened
      else frame.unopened := by
  unfold PipeClient.connect Frame.openNamed
  rw [run_getName_bind, run_descriptor_bind]
  change Frame.after (if answers.ok .open && cStr frame.self.name ≠ [] then _ else _) = _
  rw [apply_ite Frame.after]
  congr 1
  generalize answers.ok .fcntl = fcntl
  cases fcntl <;> rfl

/-- The descriptor that `open` returned is held by nobody. -/
theorem UnixSocketClient.connect_after :
    Frame.after ((UnixSocketClient.connect answers).run frame) =
      if answers.ok .open && cStr frame.self.name ≠ [] then
        { frame with
          resources.openedBy := frame.resources.openedBy ++ [frame.self.origin] }
      else frame := by
  unfold UnixSocketClient.connect Frame.openNamed
  rw [run_getName_bind]
  change Frame.after ((Frame.descriptor
    (answers.ok .open && cStr frame.self.name ≠ []) >>= _).run frame) = _
  generalize (answers.ok .open && cStr frame.self.name ≠ []) = isOpen
  generalize answers.ok .connect = connect
  generalize answers.errno .open = errno
  cases isOpen
  · rcases errno with _ | _ | _ | _ | _ <;> cases connect <;> rfl
  · rcases errno with _ | _ | _ | _ | _ <;> cases connect <;> rfl

theorem NetSocketClient.connect_after :
    Frame.after ((NetSocketClient.connect answers).run frame) = frame := by
  unfold NetSocketClient.connect
  generalize answers.ok .gethostbyname = gethostbyname
  generalize answers.ok .connect = connect
  cases gethostbyname <;> cases connect <;> rfl

theorem acceptClient_after :
    Frame.after ((acceptClient answers).run frame) =
      match frame.self.fd with
      | none => frame
      | some d =>
        if answers.ok .accept then
          if answers.ok .close then frame.renewed
          else { frame with
            resources.openedBy := frame.resources.openedBy ++ [frame.self.origin]
            resources.closed := frame.resources.closed ++ [d] }
        else frame := by
  obtain ⟨resources, kind, origin, fd, name⟩ := frame
  unfold acceptClient
  generalize answers.ok .accept = accept
  generalize answers.ok .close = close
  cases fd <;> cases accept <;> cases close <;> rfl

theorem closeFd_run : (closeFd answers).run frame =
    .ok () { frame with
      resources.closed := frame.resources.closed ++ frame.self.fd.toList } := by
  obtain ⟨⟨openedBy, closed, objects⟩, kind, origin, fd, name⟩ := frame
  unfold closeFd
  generalize answers.ok .close = close
  cases fd with
  | none =>
    simp only [Option.toList_none, List.append_nil]
    rfl
  | some d => rfl

theorem closeAndUnlink_run (object : List UInt8 → ObjectName) :
    (closeAndUnlink answers object).run frame =
      .ok () { frame with
        resources.closed := frame.resources.closed ++ frame.self.fd.toList
        resources.objects :=
          if answers.ok .unlink then
            frame.resources.objects.filter fun o => o.name ≠ object (cStr frame.self.name)
          else frame.resources.objects } := by
  unfold closeAndUnlink
  rw [run_bind_ok (closeFd_run answers frame), run_getName_bind]
  generalize answers.ok .unlink = unlink
  cases unlink <;> rfl

end Methods

section Calls
variable {answers : Answers} {frame : Frame}

theorem reopen_handles (ok : Prop) [Decidable ok] (h : frame.self.fd = none) :
    frame.Handles (if ok then frame.opened else frame.unopened) := by
  split
  · rw [Frame.opened_eq_renewed h]
    exact .renewed
  · exact Frame.handles_unopened h

theorem reopen_drops (ok : Prop) [Decidable ok] (h : frame.self.fd ≠ none) :
    frame.Drops (if ok then frame.opened else frame.unopened) := by
  obtain ⟨d, hd⟩ := Option.ne_none_iff_exists'.mp h
  split
  · exact Frame.drops_opened hd
  · exact Frame.drops_unopened hd

theorem connect_handles {connect : Action Frame Bool}
    (hclass : Connector.connect answers frame.self.kind = some connect)
    (h : Program.ConnectKeeps frame.self answers) :
    frame.Handles (Frame.after (connect.run frame)) := by
  unfold Program.ConnectKeeps at h
  unfold Connector.connect at hclass
  split at hclass
  · rename_i hkind
    cases hclass
    rw [NetSocketClient.connect_after]
    exact .same
  · rename_i hkind
    cases hclass
    rw [PipeClient.connect_after]
    simp only [hkind] at h
    exact reopen_handles _ h
  · rename_i hkind
    cases hclass
    rw [SharedMemoryClient.connect_after]
    simp only [hkind] at h
    exact reopen_handles _ h
  · rename_i hkind
    cases hclass
    simp only [hkind] at h
    rw [UnixSocketClient.connect_after, if_neg]
    · exact .same
    · intro hopen
      obtain ⟨hok, hname⟩ := Bool.and_eq_true_iff.mp hopen
      exact of_decide_eq_true hname (h hok)
  · cases hclass

theorem connect_drops {connect : Action Frame Bool}
    (hclass : Connector.connect answers frame.self.kind = some connect)
    (h : ¬ Program.ConnectKeeps frame.self answers) :
    frame.Drops (Frame.after (connect.run frame)) := by
  unfold Program.ConnectKeeps at h
  unfold Connector.connect at hclass
  split at hclass
  · rename_i hkind
    simp only [hkind] at h
    exact absurd trivial h
  · rename_i hkind
    cases hclass
    rw [PipeClient.connect_after]
    simp only [hkind] at h
    exact reopen_drops _ h
  · rename_i hkind
    cases hclass
    rw [SharedMemoryClient.connect_after]
    simp only [hkind] at h
    exact reopen_drops _ h
  · rename_i hkind
    cases hclass
    simp only [hkind, Classical.not_imp] at h
    rw [UnixSocketClient.connect_after, if_pos (by simp [h])]
    exact .new rfl rfl fun _ hmem => Or.inl hmem
  · cases hclass

theorem accept_eq {kind : ConnectorKind} {accept : Action Frame Unit}
    (hclass : Connector.accept answers kind = some accept) :
    accept = acceptClient answers := by
  unfold Connector.accept at hclass
  split at hclass
  · exact (Option.some.inj hclass).symm
  · exact (Option.some.inj hclass).symm
  · cases hclass

theorem accept_handles (h : frame.self.fd ≠ none → answers.ok .accept → answers.ok .close) :
    frame.Handles (Frame.after ((acceptClient answers).run frame)) := by
  rw [acceptClient_after]
  split
  · exact .same
  · rename_i d hfd
    split
    · rename_i haccept
      rw [if_pos (h (by simp [hfd]) haccept)]
      exact .renewed
    · exact .same

theorem accept_drops (h : ¬ (frame.self.fd ≠ none → answers.ok .accept → answers.ok .close)) :
    frame.Drops (Frame.after ((acceptClient answers).run frame)) := by
  rw [Classical.not_imp, Classical.not_imp] at h
  obtain ⟨hfd, haccept, hclose⟩ := h
  obtain ⟨d, hd⟩ := Option.ne_none_iff_exists'.mp hfd
  rw [acceptClient_after, hd]
  simp only [if_pos haccept, if_neg hclose]
  refine Frame.Drops.new rfl rfl ?_
  intro e hmem
  rcases List.mem_append.mp hmem with hold | hnew
  · exact Or.inl hold
  · rw [List.mem_singleton.mp hnew]
    exact Or.inr hd

theorem destroy_after :
    Frame.after ((Connector.destroy answers frame.self.kind).run frame) =
      { frame with
        resources.closed := frame.resources.closed ++ frame.self.fd.toList
        resources.objects :=
          if answers.ok .unlink then
            frame.resources.objects.filter fun o => frame.self.unlinks ≠ some o.name
          else frame.resources.objects } := by
  obtain ⟨r, kind, origin, fd, name⟩ := frame
  have hfd : Frame.after ((closeFd answers).run ⟨r, kind, origin, fd, name⟩) =
      { resources := { r with
          closed := r.closed ++ fd.toList
          objects := if answers.ok .unlink then r.objects.filter fun o => none ≠ some o.name
            else r.objects }
        self := ⟨kind, origin, fd, name⟩ } := by
    rw [closeFd_run]
    simp [Frame.after]
  have hname : ∀ object : List UInt8 → ObjectName,
      Frame.after ((closeAndUnlink answers object).run ⟨r, kind, origin, fd, name⟩) =
        { resources := { r with
            closed := r.closed ++ fd.toList
            objects :=
              if answers.ok .unlink then
                r.objects.filter fun o => some (object (cStr name)) ≠ some o.name
              else r.objects }
          self := ⟨kind, origin, fd, name⟩ } := by
    intro object
    rw [closeAndUnlink_run]
    simp only [Frame.after, ne_eq, Option.some.injEq, @eq_comm _ (object (cStr name))]
  cases kind with
  | netSocketClient | netSocketServer | pipeClient | sharedMemoryClient | unixSocketClient =>
    exact hfd
  | pipeServer | sharedMemoryServer | unixSocketServer => exact hname _

end Calls
end IpcChecker
