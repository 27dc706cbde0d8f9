import IpcChecker.SharedMemoryServer

/-!
# Connectors and what they take from the system

The constructors, `Connect`, `Accept`, the move constructors and the destructors of
the eight connector classes, over the descriptors and the named objects of the system.
Every call to the system may fail. The descriptors are numbered in the order in which
they were opened, so that a number is never used again.
-/

namespace IpcChecker
open Shared
set_option autoImplicit false

inductive ConnectorKind where
  | netSocketClient
  | netSocketServer
  | pipeClient
  | pipeServer
  | sharedMemoryClient
  | sharedMemoryServer
  | unixSocketClient
  | unixSocketServer
  deriving DecidableEq

/-- `none` is -1. -/
abbrev FileDescriptor := Option Nat

inductive ObjectName where
  | shm (name : List UInt8)
  | file (path : List UInt8)
  deriving DecidableEq

def ObjectName.bytes : ObjectName → List UInt8
  | .shm name => name
  | .file path => path

/-- An object that can be opened by name, with the construction that created it. -/
structure NamedObject where
  name : ObjectName
  creator : Option Nat
  deriving DecidableEq

/-- `openedBy` has an entry for each descriptor, the construction it was opened for;
`closed` lists the descriptors that `close` was called for. -/
structure Resources where
  openedBy : List Nat
  closed : List Nat
  objects : List NamedObject
  deriving DecidableEq

/-- The members of a connector that name resources. `origin` numbers the construction
that it goes back to, through moves. -/
structure Connector where
  kind : ConnectorKind
  origin : Nat
  fd : FileDescriptor
  name : List UInt8
  deriving DecidableEq

/-- What a method acts on. -/
structure Frame where
  resources : Resources
  self : Connector

inductive Errno where
  | eexist
  | enoent
  | enxio
  | other
  deriving DecidableEq

inductive SystemCall where
  | shmOpen
  | ftruncate
  | mmap
  | fstat
  | socket
  | bind
  | listen
  | accept
  | close
  | mkfifo
  | open
  | fcntl
  | connect
  | gethostbyname
  | unlink
  deriving DecidableEq

/-- What the system answers during one call of a method: the `errno` of each call that it
fails, the size of the object and its flag, and the byte that an unset end of `sun_path` has. -/
structure Answers where
  errno : SystemCall → Option Errno
  stSize : UInt64
  isInitialized : Bool
  sunPathEnd : UInt8

def Answers.ok (answers : Answers) (call : SystemCall) : Bool := (answers.errno call).isNone

def Resources.exists (r : Resources) (name : ObjectName) : Bool :=
  r.objects.any fun object => object.name = name

/-- How a call ends that creates an object and that the system would let end with `errno`. -/
def Resources.createErrno (r : Resources) (name : ObjectName) (errno : Option Errno) :
    Option Errno :=
  if errno ≠ none then errno
  else if name.bytes = [] then some .enoent
  else if r.exists name then some .eexist
  else none

/-! Strings. -/

/-- The string at a pointer, which ends before the first zero byte. -/
def cStr (s : List UInt8) : List UInt8 := s.takeWhile (· ≠ 0)

def strncpy (s : List UInt8) (n : Nat) : List UInt8 :=
  (cStr s).take n ++ List.replicate (n - (cStr s).length) 0

/-- `"/tmp/" + connection_id` -/
def tmpPath (connectionId : List UInt8) : List UInt8 :=
  [0x2f, 0x74, 0x6d, 0x70, 0x2f] ++ connectionId

/-- The path in `sun_path`, of which `strncpy` sets all but the last of 108 bytes. -/
def sunPath (name : List UInt8) (sunPathEnd : UInt8) : List UInt8 :=
  cStr (strncpy name 107 ++ [sunPathEnd])

/-! The calls that acquire or release something. -/

namespace Frame

/-- The frame that a method leaves, whether it returns or throws. -/
def after {α : Type} : EStateM.Result Failure Frame α → Frame
  | .ok _ frame => frame
  | .error _ frame => frame

def setFd (fd : FileDescriptor) : Action Frame Unit :=
  modify fun frame => { frame with self.fd := fd }

def setName (name : List UInt8) : Action Frame Unit :=
  modify fun frame => { frame with self.name := name }

def getFd : Action Frame FileDescriptor := do
  return (← get).self.fd

def getName : Action Frame (List UInt8) := do
  return (← get).self.name

/-- A call that returns a new descriptor, or -1. -/
def descriptor (ok : Bool) : Action Frame FileDescriptor := do
  let frame ← get
  if ok then
    set { frame with resources.openedBy := frame.resources.openedBy ++ [frame.self.origin] }
    return some frame.resources.openedBy.length
  else return none

/-- `open` and `shm_open` without `O_CREAT`. -/
def openNamed (name : ObjectName) (ok : Bool) : Action Frame FileDescriptor :=
  descriptor (ok && name.bytes ≠ [])

/-- A call that creates an object; `none` is success. -/
def create (name : ObjectName) (errno : Option Errno) : Action Frame (Option Errno) := do
  let frame ← get
  let errno := frame.resources.createErrno name errno
  if errno = none then
    set { frame with
      resources.objects := frame.resources.objects ++ [NamedObject.mk name (some frame.self.origin)] }
  return errno

/-- Whether `close` returned 0. The descriptor is gone also where it did not. -/
def close (fd : FileDescriptor) (ok : Bool) : Action Frame Bool := do
  match fd with
  | some d =>
    modify fun frame => { frame with resources.closed := frame.resources.closed ++ [d] }
    return ok
  | none => return false

def unlink (name : ObjectName) (ok : Bool) : Action Frame Unit :=
  if ok then
    modify fun frame => { frame with
      resources.objects := frame.resources.objects.filter fun object => object.name ≠ name }
  else return ()

end Frame

open IpcChecker.Frame

section Methods
variable (answers : Answers)

/-- A descriptor from `socket`, with the check of it. -/
def openSocket : Action Frame Unit := do
  let fd ← descriptor (answers.ok .socket)
  setFd fd
  if fd = none then
    throw (.exception "socket() failed")

/-- `Close` of a connector that has a descriptor only. -/
def closeFd : Action Frame Unit := do
  discard (close (← getFd) (answers.ok .close))

/-- `Close` of a server that has created an object. -/
def closeAndUnlink (object : List UInt8 → ObjectName) : Action Frame Unit := do
  closeFd answers
  unlink (object (cStr (← getName))) (answers.ok .unlink)

/-- `Accept` of a server that listens on a socket. -/
def acceptClient : Action Frame Unit := do
  let fd ← getFd
  let clientSocketFd ← descriptor (answers.ok .accept && fd ≠ none)
  if clientSocketFd = none then
    throw (.exception "accept() failed")
  if ¬ (← close fd (answers.ok .close)) then
    throw (.exception "close() failed")
  setFd clientSocketFd

/-! Shared memory. -/

namespace SharedMemoryServer

def construct (connectionId : List UInt8) (bufferSize : Option UInt64) : Action Frame Unit := do
  setName connectionId
  -- O_CREAT | O_EXCL
  let errno ← create (.shm (cStr connectionId)) (answers.errno .shmOpen)
  let fd ← descriptor errno.isNone
  setFd fd
  if fd = none then
    throw (.exception "shm_open() failed")
  let alignedBufferSize ← SPSCRingBuffer.alignCapacity (requestedCapacity bufferSize)
  if ¬ answers.ok .ftruncate then
    throw (.exception "ftruncate() failed")
  if ¬ answers.ok .mmap then
    throw (.exception "mmap() failed")
  discard (SPSCRingBuffer.new alignedBufferSize zeroedRing.ringBuffer)

/-- The destructor of the ring releases nothing. -/
def destroy : Action Frame Unit := closeAndUnlink answers .shm

end SharedMemoryServer

namespace SharedMemoryClient

def construct (connectionId : List UInt8) : Action Frame Unit :=
  setName connectionId

def connect : Action Frame Bool := do
  let fd ← openNamed (.shm (cStr (← getName))) (answers.ok .shmOpen)
  setFd fd
  if fd = none then
    if answers.errno .shmOpen = some .enoent then
      return false
    throw (.exception "shm_open() failed")
  if ¬ answers.ok .fstat then
    throw (.exception "fstat() failed")
  if answers.stSize = 0 then
    return false
  if ¬ answers.ok .mmap then
    throw (.exception "mmap() failed")
  assert (answers.isInitialized)
  return answers.isInitialized

def destroy : Action Frame Unit := closeFd answers

end SharedMemoryClient

/-! FIFOs. -/

namespace PipeServer

def construct (connectionId : List UInt8) : Action Frame Unit := do
  let fifoName := tmpPath connectionId
  setName fifoName
  let errno ← create (.file (cStr fifoName)) (answers.errno .mkfifo)
  if errno ≠ none ∧ errno ≠ some .eexist then
    throw (.exception "mkfifo() failed")
  let fd ← openNamed (.file (cStr fifoName)) (answers.ok .open)
  setFd fd
  if fd = none then
    throw (.exception "open() failed")
  if ¬ answers.ok .fcntl then
    throw (.exception "fcntl() failed")

def destroy : Action Frame Unit := closeAndUnlink answers .file

end PipeServer

namespace PipeClient

def construct (connectionId : List UInt8) : Action Frame Unit :=
  setName (tmpPath connectionId)

def connect : Action Frame Bool := do
  let fd ← openNamed (.file (cStr (← getName))) (answers.ok .open)
  setFd fd
  if fd = none then
    return false
  if ¬ answers.ok .fcntl then
    throw (.exception "fcntl() failed")
  return true

def destroy : Action Frame Unit := closeFd answers

end PipeClient

/-! Unix sockets. -/

namespace UnixSocketServer

def construct (connectionId : List UInt8) : Action Frame Unit := do
  let uxSocketName := tmpPath connectionId
  setName uxSocketName
  openSocket answers
  let errno ← create (.file (sunPath uxSocketName answers.sunPathEnd)) (answers.errno .bind)
  if errno ≠ none then
    throw (.exception "bind() failed")
  if ¬ answers.ok .listen then
    throw (.exception "listen() failed")

def accept : Action Frame Unit := acceptClient answers

def destroy : Action Frame Unit := closeAndUnlink answers .file

end UnixSocketServer

namespace UnixSocketClient

def construct (connectionId : List UInt8) : Action Frame Unit := do
  setName (tmpPath connectionId)
  openSocket answers

/-- The descriptor from `open` is a local that nothing uses after the check. -/
def connect : Action Frame Bool := do
  let fd ← openNamed (.file (cStr (← getName))) (answers.ok .open)
  if fd = none ∧ answers.errno .open ≠ some .enxio then
    return false
  if ¬ answers.ok .connect then
    return false
  return true

def destroy : Action Frame Unit := closeFd answers

end UnixSocketClient

/-! Sockets of the network. -/

namespace NetSocketServer

def construct : Action Frame Unit := do
  openSocket answers
  if ¬ answers.ok .bind then
    throw (.exception "bind() failed")
  if ¬ answers.ok .listen then
    throw (.exception "listen() failed")

def accept : Action Frame Unit := acceptClient answers

def destroy : Action Frame Unit := closeFd answers

end NetSocketServer

namespace NetSocketClient

def construct : Action Frame Unit := openSocket answers

def connect : Action Frame Bool := do
  if ¬ answers.ok .gethostbyname then
    throw (.exception "gethostbyname() failed")
  if ¬ answers.ok .connect then
    return false
  return true

def destroy : Action Frame Unit := closeFd answers

end NetSocketClient

/-! Dispatch on the class. -/

namespace Connector

/-- The constructor of a class; the network's classes take no connection id. -/
def construct (kind : ConnectorKind) (connectionId : List UInt8) (bufferSize : Option UInt64) :
    Action Frame Unit :=
  match kind with
  | .netSocketClient => NetSocketClient.construct answers
  | .netSocketServer => NetSocketServer.construct answers
  | .pipeClient => PipeClient.construct connectionId
  | .pipeServer => PipeServer.construct answers connectionId
  | .sharedMemoryClient => SharedMemoryClient.construct connectionId
  | .sharedMemoryServer => SharedMemoryServer.construct answers connectionId bufferSize
  | .unixSocketClient => UnixSocketClient.construct answers connectionId
  | .unixSocketServer => UnixSocketServer.construct answers connectionId

/-- `Connect`, where the class has it. -/
def connect : ConnectorKind → Option (Action Frame Bool)
  | .netSocketClient => some (NetSocketClient.connect answers)
  | .pipeClient => some (PipeClient.connect answers)
  | .sharedMemoryClient => some (SharedMemoryClient.connect answers)
  | .unixSocketClient => some (UnixSocketClient.connect answers)
  | _ => none

/-- `Accept`, where the class has it. -/
def accept : ConnectorKind → Option (Action Frame Unit)
  | .netSocketServer => some (NetSocketServer.accept answers)
  | .unixSocketServer => some (UnixSocketServer.accept answers)
  | _ => none

def destroy : ConnectorKind → Action Frame Unit
  | .netSocketClient => NetSocketClient.destroy answers
  | .netSocketServer => NetSocketServer.destroy answers
  | .pipeClient => PipeClient.destroy answers
  | .pipeServer => PipeServer.destroy answers
  | .sharedMemoryClient => SharedMemoryClient.destroy answers
  | .sharedMemoryServer => SharedMemoryServer.destroy answers
  | .unixSocketClient => UnixSocketClient.destroy answers
  | .unixSocketServer => UnixSocketServer.destroy answers

/-- What the move constructor leaves behind: -1 and an empty string. -/
def movedFrom (c : Connector) : Connector := { c with fd := none, name := [] }

/-- The name that the destructor of a server unlinks. -/
def unlinks (c : Connector) : Option ObjectName :=
  match c.kind with
  | .sharedMemoryServer => some (.shm (cStr c.name))
  | .pipeServer => some (.file (cStr c.name))
  | .unixSocketServer => some (.file (cStr c.name))
  | _ => none

end Connector
end Methods

/-! Runs of a program that uses connectors. -/

/-- `live` holds the connectors that have been constructed and not destroyed. -/
structure Program where
  resources : Resources
  live : List Connector
  constructions : Nat

inductive ConnectorEvent where
  | construct (kind : ConnectorKind) (connectionId : List UInt8) (bufferSize : Option UInt64)
      (answers : Answers)
  | connect (i : Nat) (answers : Answers)
  | accept (i : Nat) (answers : Answers)
  | move (i : Nat)
  | destroy (i : Nat) (answers : Answers)

namespace Program

/-- No connectors yet, and objects of others. -/
def initial (names : List ObjectName) : Program where
  resources := ⟨[], [], names.map fun name => ⟨name, none⟩⟩
  live := []
  constructions := 0

/-- The frame of a connector that is being constructed. -/
def newFrame (p : Program) (kind : ConnectorKind) : Frame :=
  ⟨p.resources, ⟨kind, p.constructions, none, []⟩⟩

/-- Where the constructor throws there is no connector, and no destructor runs. -/
def construct (kind : ConnectorKind) (connectionId : List UInt8) (bufferSize : Option UInt64)
    (answers : Answers) (p : Program) : Program :=
  match (Connector.construct answers kind connectionId bufferSize).run (p.newFrame kind) with
  | .ok _ frame => ⟨frame.resources, p.live ++ [frame.self], p.constructions + 1⟩
  | .error _ frame => ⟨frame.resources, p.live, p.constructions + 1⟩

/-- A method of a live connector, which stays live also where the method throws. -/
def call {α : Type} (method : Action Frame α) (i : Nat) (c : Connector) (p : Program) : Program :=
  let frame := Frame.after (method.run ⟨p.resources, c⟩)
  { p with resources := frame.resources, live := p.live.set i frame.self }

def move (i : Nat) (c : Connector) (p : Program) : Program :=
  { p with live := p.live.set i c.movedFrom ++ [c] }

def destroy (i : Nat) (c : Connector) (answers : Answers) (p : Program) : Program :=
  let frame := Frame.after ((Connector.destroy answers c.kind).run ⟨p.resources, c⟩)
  { p with resources := frame.resources, live := p.live.eraseIdx i }

def step (p : Program) : ConnectorEvent → Option Program
  | .construct kind connectionId bufferSize answers =>
    some (p.construct kind connectionId bufferSize answers)
  | .connect i answers => do
    let c ← p.live[i]?
    let connect ← Connector.connect answers c.kind
    return p.call connect i c
  | .accept i answers => do
    let c ← p.live[i]?
    let accept ← Connector.accept answers c.kind
    return p.call accept i c
  | .move i => do
    let c ← p.live[i]?
    return p.move i c
  | .destroy i answers => do
    let c ← p.live[i]?
    return p.destroy i c answers

def Steps (p : Program) (e : ConnectorEvent) (p' : Program) : Prop := p.step e = some p'

end Program
end IpcChecker
