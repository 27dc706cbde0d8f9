import IpcChecker.SharedMemoryServer
import IpcChecker.RingProgress

/-!
# Start-up of the shared-memory connection

The constructor of the server and `Connect` of the client, step by step. Each call
to the system, each member that the ring's constructor initialises and each access to
the flag is a step. A connected client pushes and a constructed server pops by the
turns of the interleaved ring.
-/

namespace IpcChecker
open Shared
set_option autoImplicit false

/-- Where the server's constructor is. Inside the ring's constructor there is a phase after
each member; `ready` means that it has returned. -/
inductive ServerPhase where
  | start
  | opened
  | aligned (capacity : UInt32)
  | truncated (capacity : UInt32)
  | mapped (capacity : UInt32)
  | capacitySet (capacity : UInt32)
  | flagCleared (capacity : UInt32)
  | producerIndexSet (capacity : UInt32)
  | consumerIndexSet (capacity : UInt32)
  | constructed (capacity : UInt32)
  | ready (capacity : UInt32)
  | failed (e : Failure)
  deriving DecidableEq

/-- Where the client is. `disconnected` is the phase before every call of `Connect`;
`faulted` is an access to memory that the object does not have. -/
inductive ClientPhase where
  | disconnected
  | opened
  | sized
  | mapped
  | awake
  | checked
  | connected
  | failed (e : Failure)
  | faulted
  deriving DecidableEq

/-- `objectSize` is the size of the object under the connection's name, when there is one,
`isInitialized` the flag in it and `system` the ring in it with the calls on it. -/
structure Startup where
  objectSize : Option UInt64
  isInitialized : Bool
  system : RingSystem
  server : ServerPhase
  client : ClientPhase

/-- The steps of the two sides; `ok` says whether a call to the system succeeds. -/
inductive StartupStep where
  | shmOpen (ok : Bool)
  | alignCapacity
  | ftruncate (ok : Bool)
  | mmap (ok : Bool)
  | initCapacity
  | initFlag
  | initProducerIndex
  | initConsumerIndex
  | checkCapacity
  | setInitialized
  | serverTurn (t : Turn)
  | connectShmOpen (ok : Bool)
  | connectFstat (ok : Bool)
  | connectMmap (ok : Bool)
  | waitInitialized
  | assertInitialized
  | connectReturn
  | clientTurn (t : Turn)

namespace Startup

/-- No object yet; the memory it will have holds zeros. -/
def initial : Startup where
  objectSize := none
  isInitialized := false
  system := RingSystem.initial 0 fun _ => 0
  server := .start
  client := .disconnected

/-! The server's constructor. -/

def shmOpen (ok : Bool) (s : Startup) : Option Startup :=
  match s.server with
  | .start =>
    if s.objectSize.isSome ∨ ¬ ok then
      some { s with server := .failed (.exception "shm_open() failed") }
    else some { s with objectSize := some 0, server := .opened }
  | _ => none

def alignCapacity (bufferSize : Option UInt64) (s : Startup) : Option Startup :=
  match s.server with
  | .opened =>
    match (SPSCRingBuffer.alignCapacity (SharedMemoryServer.requestedCapacity bufferSize) :
        Action Unit UInt32).run () with
    | .ok capacity _ => some { s with server := .aligned capacity }
    | .error e _ => some { s with server := .failed e }
  | _ => none

def ftruncate (ok : Bool) (s : Startup) : Option Startup :=
  match s.server with
  | .aligned capacity =>
    if ok then
      some { s with
        objectSize := some (SharedMemoryServer.shmemSize capacity)
        server := .truncated capacity }
    else some { s with server := .failed (.exception "ftruncate() failed") }
  | _ => none

def mmap (ok : Bool) (s : Startup) : Option Startup :=
  match s.server with
  | .truncated capacity =>
    if ok then some { s with server := .mapped capacity }
    else some { s with server := .failed (.exception "mmap() failed") }
  | _ => none

def initCapacity (s : Startup) : Option Startup :=
  match s.server with
  | .mapped capacity =>
    some { s with
      system := { s.system with ring := { s.system.ring with capacity } }
      server := .capacitySet capacity }
  | _ => none

/-- A default-constructed `std::atomic_flag` is clear. -/
def initFlag (s : Startup) : Option Startup :=
  match s.server with
  | .capacitySet capacity =>
    some { s with isInitialized := false, server := .flagCleared capacity }
  | _ => none

/-- The initial value of an atomic is the oldest that a load can return. -/
def initProducerIndex (s : Startup) : Option Startup :=
  match s.server with
  | .flagCleared capacity =>
    some { s with
      system := { s.system with
        ring := { s.system.ring with producerIndex := ⟨0, 0⟩ }
        producerStores := [⟨0, 0⟩] }
      server := .producerIndexSet capacity }
  | _ => none

def initConsumerIndex (s : Startup) : Option Startup :=
  match s.server with
  | .producerIndexSet capacity =>
    some { s with
      system := { s.system with
        ring := { s.system.ring with consumerIndex := ⟨0, 0⟩ }
        consumerStores := [⟨0, 0⟩] }
      server := .consumerIndexSet capacity }
  | _ => none

/-- The body of the ring's constructor. -/
def checkCapacity (s : Startup) : Option Startup :=
  match s.server with
  | .consumerIndexSet capacity =>
    match (SPSCRingBuffer.alignCapacity capacity : Action Unit UInt32).run () with
    | .ok aligned _ =>
      if capacity ≠ aligned then
        some { s with server := .failed (.exception "wrong capacity") }
      else some { s with server := .constructed capacity }
    | .error e _ => some { s with server := .failed e }
  | _ => none

def setInitialized (s : Startup) : Option Startup :=
  match s.server with
  | .constructed capacity => some { s with isInitialized := true, server := .ready capacity }
  | _ => none

/-- A turn of a `Receive`, once there is a server. -/
def serverTurn (host : Endianness) (t : Turn) (s : Startup) : Option Startup :=
  match s.server with
  | .ready _ =>
    if t.isPop then (s.system.turn host t).map fun system => { s with system } else none
  | _ => none

/-! The client. -/

/-- `Connect` is called until it has returned true; a call may also have thrown. -/
def canConnect : ClientPhase → Bool
  | .disconnected => true
  | .failed (.exception _) => true
  | _ => false

def connectShmOpen (ok : Bool) (s : Startup) : Option Startup :=
  if canConnect s.client then
    if ok then
      match s.objectSize with
      | none => some { s with client := .disconnected }
      | some _ => some { s with client := .opened }
    else some { s with client := .failed (.exception "shm_open() failed") }
  else none

def connectFstat (ok : Bool) (s : Startup) : Option Startup :=
  match s.client, s.objectSize with
  | .opened, some size =>
    if ok then
      if size = 0 then some { s with client := .disconnected }
      else some { s with client := .sized }
    else some { s with client := .failed (.exception "fstat() failed") }
  | _, _ => none

def connectMmap (ok : Bool) (s : Startup) : Option Startup :=
  match s.client with
  | .sized =>
    if ok then some { s with client := .mapped }
    else some { s with client := .failed (.exception "mmap() failed") }
  | _ => none

/-- Whether the object has the bytes of the ring's members. -/
def hasMembers (s : Startup) : Bool :=
  match s.objectSize with
  | some size => sizeofSPSCRingBuffer ≤ size
  | none => false

/-- `wait(false)` returns only when the flag is set. -/
def waitInitialized (s : Startup) : Option Startup :=
  match s.client with
  | .mapped =>
    if s.hasMembers then
      if s.isInitialized then some { s with client := .awake } else none
    else some { s with client := .faulted }
  | _ => none

def assertInitialized (s : Startup) : Option Startup :=
  match s.client with
  | .awake =>
    if s.isInitialized then some { s with client := .checked }
    else some { s with client := .failed .assertion }
  | _ => none

/-- `return _rbh->IsInitialized();` -/
def connectReturn (s : Startup) : Option Startup :=
  match s.client with
  | .checked =>
    if s.isInitialized then some { s with client := .connected }
    else some { s with client := .disconnected }
  | _ => none

/-- A turn of a `Send`, once `Connect` has returned true. -/
def clientTurn (host : Endianness) (t : Turn) (s : Startup) : Option Startup :=
  match s.client with
  | .connected =>
    if t.isPop then none else (s.system.turn host t).map fun system => { s with system }
  | _ => none

variable (host : Endianness) (bufferSize : Option UInt64)

def step (s : Startup) : StartupStep → Option Startup
  | .shmOpen ok => s.shmOpen ok
  | .alignCapacity => s.alignCapacity bufferSize
  | .ftruncate ok => s.ftruncate ok
  | .mmap ok => s.mmap ok
  | .initCapacity => s.initCapacity
  | .initFlag => s.initFlag
  | .initProducerIndex => s.initProducerIndex
  | .initConsumerIndex => s.initConsumerIndex
  | .checkCapacity => s.checkCapacity
  | .setInitialized => s.setInitialized
  | .serverTurn t => s.serverTurn host t
  | .connectShmOpen ok => s.connectShmOpen ok
  | .connectFstat ok => s.connectFstat ok
  | .connectMmap ok => s.connectMmap ok
  | .waitInitialized => s.waitInitialized
  | .assertInitialized => s.assertInitialized
  | .connectReturn => s.connectReturn
  | .clientTurn t => s.clientTurn host t

def Steps (s : Startup) (e : StartupStep) (s' : Startup) : Prop :=
  s.step host bufferSize e = some s'

end Startup

/-- The constructor's steps when every call to the system succeeds. -/
def constructorSteps : List StartupStep :=
  [.shmOpen true, .alignCapacity, .ftruncate true, .mmap true, .initCapacity, .initFlag,
    .initProducerIndex, .initConsumerIndex, .checkCapacity, .setInitialized]

/-- Taken without a break, the steps build what the constructor builds. -/
theorem Startup.constructorSteps_build (host : Endianness) {calls : SharedMemoryServer.SystemCalls}
    {bufferSize : Option UInt64} {o : SharedObject}
    (hnew : (SharedMemoryServer.new calls bufferSize).run none = .ok () (some o)) :
    ∃ s, Run (Startup.Steps host bufferSize) Startup.initial constructorSteps s ∧
      s.objectSize = some o.size ∧ s.isInitialized = o.isInitialized ∧ s.system.ring = o.ring := by
  have hopen : calls.shmOpen := by
    by_contra hfail
    rw [SharedMemoryServer.new_of_shmOpen (Or.inr hfail)] at hnew
    cases hnew
  rcases Nat.lt_or_ge ((SharedMemoryServer.requestedCapacity bufferSize).toNat + 3) (2 ^ 32) with
    hfits | hover
  · rcases SharedMemoryServer.new_builds hopen hfits with ⟨_, _, hfail, _⟩ | ⟨capacity, hnat, hrun⟩
    · rw [hfail] at hnew
      cases hnew
    · rw [hrun] at hnew
      cases hnew
      obtain ⟨capacity', halign, hnat'⟩ := SPSCRingBuffer.alignCapacity_fits hfits
      obtain rfl : capacity' = capacity := UInt32.toNat_inj.mp (hnat'.trans hnat.symm)
      have h4 : capacity'.toNat % 4 = 0 := by
        rw [hnat]
        exact Nat.mul_mod_left _ 4
      refine ⟨⟨some (SharedMemoryServer.shmemSize capacity'), true,
        RingSystem.initial capacity' fun _ => 0, .ready capacity', .disconnected⟩,
        Run.of_foldlM ?_, rfl, rfl, rfl⟩
      simp [constructorSteps, Startup.step, Startup.shmOpen, Startup.alignCapacity,
        Startup.ftruncate, Startup.mmap, Startup.initCapacity, Startup.initFlag,
        Startup.initProducerIndex, Startup.initConsumerIndex, Startup.checkCapacity,
        Startup.setInitialized, Startup.initial, halign,
        SPSCRingBuffer.alignCapacity_of_aligned h4, RingSystem.initial, SPSCRingBuffer.initial]
  · rw [SharedMemoryServer.new_asserts hopen hover] at hnew
    cases hnew

/-- Whether a step is one of the server's constructor. -/
def StartupStep.constructs : StartupStep → Bool
  | .shmOpen _ | .alignCapacity | .ftruncate _ | .mmap _ | .initCapacity | .initFlag
  | .initProducerIndex | .initConsumerIndex | .checkCapacity | .setInitialized => true
  | _ => false

/-- The message with which a turn begins a Push that the ring does not refuse. -/
def Turn.message (capacity : UInt32) : Turn → Option (List UInt8)
  | .beginPush payload payloadSize =>
    if 4 + payloadSize.toNat ≤ capacity.toNat then
      some (Memory.slice payload 0 payloadSize.toNat)
    else none
  | _ => none

/-- The messages sent by a connected client, in order, less those that Send threw for. -/
def sentMessages (capacity : UInt32) (steps : List StartupStep) : List (List UInt8) :=
  steps.filterMap fun
    | .clientTurn t => t.message capacity
    | _ => none

/-- The message of the Push in progress. -/
def RingSystem.sending (s : RingSystem) : List (List UInt8) :=
  match s.push with
  | .waiting payload payloadSize _ _ => [Memory.slice payload 0 payloadSize.toNat]
  | .passed payload payloadSize _ => [Memory.slice payload 0 payloadSize.toNat]
  | .copying payload transfer _ => [Memory.slice payload 0 transfer.payloadSize.toNat]
  | _ => []

end IpcChecker
