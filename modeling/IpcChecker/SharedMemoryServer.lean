import IpcChecker.RingState

/-!
# Construction of the shared-memory server

The constructor of `SharedMemoryServer` with its calls to the system, and the
capacity of the ring it builds. The requested size has 64 bits, `AlignCapacity`
takes 32.
-/

namespace IpcChecker
open Shared
set_option autoImplicit false

/-- `sizeof(SPSCRingBuffer)`: three cache lines of 64 bytes lie before the ring bytes. -/
def sizeofSPSCRingBuffer : UInt64 := 192

/-- The shared-memory object under the connection's name. -/
structure SharedObject where
  size : UInt64
  isInitialized : Bool
  ring : SPSCRingBuffer

/-- Zeroed memory taken as a ring buffer. -/
def zeroedRing : SPSCRingBuffer := SPSCRingBuffer.initial 0 fun _ => 0

namespace SharedMemoryServer

def kDefaultBufferSizeInBytes : UInt64 := 4096

/-- Which calls to the system succeed. -/
structure SystemCalls where
  shmOpen : Bool
  ftruncate : Bool
  mmap : Bool

/-- The size handed to `AlignCapacity`, converted to its parameter type. -/
def requestedCapacity (bufferSize : Option UInt64) : UInt32 :=
  (bufferSize.getD kDefaultBufferSizeInBytes).toUInt32

def shmemSize (alignedBufferSize : UInt32) : UInt64 :=
  sizeofSPSCRingBuffer + alignedBufferSize.toUInt64

/-- The constructor, over the object that has the connection's name. -/
def new (calls : SystemCalls) (bufferSize : Option UInt64) :
    Action (Option SharedObject) Unit := do
  -- O_EXCL: an object that is there already is not opened.
  if (← get).isSome ∨ ¬ calls.shmOpen then
    throw (.exception "shm_open() failed")
  set (some (⟨0, false, zeroedRing⟩ : SharedObject))
  let alignedBufferSize ← SPSCRingBuffer.alignCapacity (requestedCapacity bufferSize)
  if ¬ calls.ftruncate then
    throw (.exception "ftruncate() failed")
  set (some (⟨shmemSize alignedBufferSize, false, zeroedRing⟩ : SharedObject))
  if ¬ calls.mmap then
    throw (.exception "mmap() failed")
  let ring ← SPSCRingBuffer.new alignedBufferSize zeroedRing.ringBuffer
  set (some (⟨shmemSize alignedBufferSize, true, ring⟩ : SharedObject))

/-- What a caller may expect for a requested size of `n` bytes: a runtime error, or the
least aligned ring with room for them in an object that ends with it. -/
def CapacityAsAsked (n : Nat) : EStateM.Result Failure (Option SharedObject) Unit → Prop
  | .error (.exception what) _ => what ≠ "wrong capacity"
  | .error .assertion _ => False
  | .ok () object => ∃ o, object = some o ∧ o.ring.capacity.toNat % 4 = 0 ∧
      n ≤ o.ring.capacity.toNat ∧ o.ring.capacity.toNat < n + 4 ∧
      o.size.toNat = sizeofSPSCRingBuffer.toNat + o.ring.capacity.toNat ∧
      o.ring = SPSCRingBuffer.initial o.ring.capacity o.ring.ringBuffer ∧ o.isInitialized

end SharedMemoryServer

/-- The last three 32-bit sizes cannot be rounded up; the assert sees it before the exception. -/
theorem alignUpByRecordHeader_overflows {σ : Type} {value : UInt32}
    (h : 2 ^ 32 ≤ value.toNat + 3) :
    (alignUpByRecordHeader value : Action σ UInt32) = throw .assertion := by
  have hv := value.toNat_lt
  have hcases : value = 4294967293 ∨ value = 4294967294 ∨ value = 4294967295 := by
    simp only [← UInt32.toNat_inj]
    change value.toNat = 4294967293 ∨ value.toNat = 4294967294 ∨ value.toNat = 4294967295
    omega
  rcases hcases with rfl | rfl | rfl <;> rfl

namespace SPSCRingBuffer

/-- Aligning gives the least multiple of four, where 32 bits can hold it. -/
theorem alignCapacity_fits {capacity : UInt32} (h : capacity.toNat + 3 < 2 ^ 32) :
    ∃ aligned, (∀ {σ : Type}, (alignCapacity capacity : Action σ UInt32) = pure aligned) ∧
      aligned.toNat = alignedSize capacity.toNat := by
  obtain ⟨aligned, hok, hnat⟩ := alignUpByRecordHeader_spec capacity h
  refine ⟨aligned, ?_, hnat⟩
  intro σ
  have hle : ¬ aligned < capacity := by
    rw [UInt32.lt_iff_toNat_lt, hnat]
    unfold alignedSize
    omega
  unfold alignCapacity
  rw [hok, pure_bind, if_neg hle]

theorem alignCapacity_overflows {σ : Type} {capacity : UInt32} (h : 2 ^ 32 ≤ capacity.toNat + 3) :
    (alignCapacity capacity : Action σ UInt32) = throw .assertion := by
  unfold alignCapacity
  rw [alignUpByRecordHeader_overflows h]
  rfl

theorem alignCapacity_of_aligned {σ : Type} {capacity : UInt32} (h4 : capacity.toNat % 4 = 0) :
    (alignCapacity capacity : Action σ UInt32) = pure capacity := by
  have hlt := capacity.toNat_lt
  have hfits : capacity.toNat + 3 < 2 ^ 32 := by omega
  obtain ⟨aligned, hok, hnat⟩ := alignCapacity_fits hfits
  obtain rfl : aligned = capacity := by
    rw [← UInt32.toNat_inj, hnat]
    unfold alignedSize
    omega
  exact hok

end SPSCRingBuffer

namespace SharedMemoryServer
variable {calls : SystemCalls} {bufferSize : Option UInt64}

theorem new_of_shmOpen {object : Option SharedObject}
    (h : object.isSome ∨ ¬ calls.shmOpen) :
    (new calls bufferSize).run object = .error (.exception "shm_open() failed") object := by
  unfold new
  rw [run_get_bind, if_pos h]
  exact run_throw_bind _ _ _

/-- A size at the top of the 32-bit range stops the constructor at the assert. -/
theorem new_asserts (hopen : calls.shmOpen) (h : 2 ^ 32 ≤ (requestedCapacity bufferSize).toNat + 3) :
    (new calls bufferSize).run none =
      .error .assertion (some ⟨0, false, zeroedRing⟩) := by
  unfold new
  rw [run_get_bind, if_neg (by simp [hopen]), SPSCRingBuffer.alignCapacity_overflows h]
  rfl

/-- Every other size gets an aligned ring, unless a call to the system fails. -/
theorem new_builds (hopen : calls.shmOpen) (h : (requestedCapacity bufferSize).toNat + 3 < 2 ^ 32) :
    (∃ what object, (new calls bufferSize).run none = .error (.exception what) object ∧
      what ≠ "wrong capacity" ∧ ¬ (calls.ftruncate ∧ calls.mmap)) ∨
    ∃ capacity : UInt32, capacity.toNat = alignedSize (requestedCapacity bufferSize).toNat ∧
      (new calls bufferSize).run none =
        .ok () (some ⟨shmemSize capacity, true, SPSCRingBuffer.initial capacity fun _ => 0⟩) := by
  obtain ⟨capacity, hok, hnat⟩ := SPSCRingBuffer.alignCapacity_fits h
  have haligned : capacity.toNat % 4 = 0 := by
    rw [hnat]
    exact Nat.mul_mod_left _ 4
  have hring := SPSCRingBuffer.new_eq_initial (σ := Option SharedObject) haligned
    zeroedRing.ringBuffer
  unfold new
  rw [run_get_bind, if_neg (by simp [hopen]), hok, pure_bind, hring]
  by_cases htruncate : calls.ftruncate
  · by_cases hmmap : calls.mmap
    · refine Or.inr ⟨capacity, hnat, ?_⟩
      rw [if_neg (not_not_intro htruncate), if_neg (not_not_intro hmmap)]
      rfl
    · refine Or.inl ⟨"mmap() failed", some ⟨shmemSize capacity, false, zeroedRing⟩, ?_,
        by decide, fun hboth => hmmap hboth.2⟩
      rw [if_neg (not_not_intro htruncate), if_pos hmmap]
      rfl
  · refine Or.inl ⟨"ftruncate() failed", some ⟨0, false, zeroedRing⟩, ?_, by decide,
      fun hboth => htruncate hboth.1⟩
    rw [if_pos htruncate]
    rfl

theorem requestedCapacity_toNat (bufferSize : Option UInt64) :
    (requestedCapacity bufferSize).toNat =
      (bufferSize.getD kDefaultBufferSizeInBytes).toNat % 2 ^ 32 := UInt64.toNat_toUInt32 _

theorem shmemSize_toNat (capacity : UInt32) :
    (shmemSize capacity).toNat = sizeofSPSCRingBuffer.toNat + capacity.toNat := by
  have hc := capacity.toNat_lt
  unfold shmemSize
  rw [UInt64.toNat_add, UInt32.toNat_toUInt64]
  exact Nat.mod_eq_of_lt (by change 192 + capacity.toNat < 2 ^ 64; omega)

/-- The ring is as large as was asked for exactly up to the last size that 32 bits can align. -/
theorem capacity_as_asked_iff (bufferSize : Option UInt64) :
    (∀ calls object, CapacityAsAsked (bufferSize.getD kDefaultBufferSizeInBytes).toNat
      ((new calls bufferSize).run object)) ↔
    (bufferSize.getD kDefaultBufferSizeInBytes).toNat ≤ 2 ^ 32 - 4 := by
  have hrequested := requestedCapacity_toNat bufferSize
  generalize hn : (bufferSize.getD kDefaultBufferSizeInBytes).toNat = n at *
  constructor
  · intro hall
    by_contra hlarge
    have h := hall ⟨true, true, true⟩ none
    rcases Nat.lt_or_ge ((requestedCapacity bufferSize).toNat + 3) (2 ^ 32) with hfits | hover
    · have hopen : SystemCalls.shmOpen ⟨true, true, true⟩ := rfl
      rcases new_builds hopen hfits with
        ⟨_, _, _, _, hfail⟩ | ⟨capacity, hnat, hrun⟩
      · exact hfail ⟨rfl, rfl⟩
      · -- The high half of the size was dropped.
        rw [hrun] at h
        obtain ⟨_, heq, _, hle, _⟩ := h
        cases heq
        have hcapacity : n ≤ capacity.toNat := hle
        unfold alignedSize at hnat
        omega
    · rw [new_asserts rfl hover] at h
      exact h
  · intro hsmall calls object
    by_cases hopen : object.isSome ∨ ¬ calls.shmOpen
    · rw [new_of_shmOpen hopen]
      exact (by decide : "shm_open() failed" ≠ "wrong capacity")
    · rw [not_or, not_not] at hopen
      obtain rfl : object = none := Option.not_isSome_iff_eq_none.mp hopen.1
      rw [Nat.mod_eq_of_lt (by omega)] at hrequested
      have hfits : (requestedCapacity bufferSize).toNat + 3 < 2 ^ 32 := by omega
      rcases new_builds hopen.2 hfits with
        ⟨what, object, hrun, hwhat, _⟩ | ⟨capacity, hnat, hrun⟩
      · rw [hrun]
        exact hwhat
      · rw [hrun]
        rw [hrequested] at hnat
        unfold alignedSize at hnat
        refine ⟨_, rfl, ?_, ?_, ?_, shmemSize_toNat capacity, rfl, rfl⟩
        · change capacity.toNat % 4 = 0
          omega
        · change n ≤ capacity.toNat
          omega
        · change capacity.toNat < n + 4
          omega

/-- A request of four gibibytes gets a ring of no bytes at all. -/
theorem large_request_gets_empty_ring :
    ¬ ∀ calls object, CapacityAsAsked 4294967296 ((new calls (some 4294967296)).run object) := by
  intro hall
  have h := hall ⟨true, true, true⟩ none
  have hfits : (requestedCapacity (some 4294967296)).toNat + 3 < 2 ^ 32 := by decide
  have hopen : SystemCalls.shmOpen ⟨true, true, true⟩ := rfl
  rcases new_builds hopen hfits with
    ⟨_, _, _, _, hfail⟩ | ⟨capacity, hnat, hrun⟩
  · exact hfail ⟨rfl, rfl⟩
  · rw [hrun] at h
    obtain ⟨_, heq, _, hle, _⟩ := h
    cases heq
    have hcapacity : 4294967296 ≤ capacity.toNat := hle
    rw [hnat] at hcapacity
    exact absurd hcapacity (by decide)

end SharedMemoryServer
end IpcChecker
