import IpcChecker.Buffer
import IpcChecker.Shared.Runs

/-!
# The reverse-order operations of the buffer

The loops of `WriteBytesInReverseOrder` and `ReadBytesInReverseOrder` step by step, and
both operations against `WriteBytes` and `ReadBytes`, in every order of calls on a buffer.
-/

namespace IpcChecker
open Shared
set_option autoImplicit false

/-! The two loops. -/

/-- The byte of the buffer and the byte of the data that one step of a loop touches. -/
structure Access where
  buf : Nat
  data : Nat
  deriving Repr, DecidableEq

/-- The variables of a loop, with the memory that it writes. -/
structure LoopState where
  size : UInt64
  bufPtr : UInt64
  dataPtr : UInt64
  written : Memory UInt8

/-- `*buf_ptr = *data_ptr` -/
def storeToBuffer (data : Memory UInt8) (a : Access) (memory : Memory UInt8) : Memory UInt8 :=
  Function.update memory a.buf (data a.data)

/-- `*data_ptr = *buf_ptr` -/
def loadFromBuffer (memory : Memory UInt8) (a : Access) (data : Memory UInt8) : Memory UInt8 :=
  Function.update data a.data (memory a.buf)

/-- One round of `while (size--)`: the test, and the body when the counter was not zero. -/
def loopStep (body : Access → Memory UInt8 → Memory UInt8) (s : LoopState) :
    Option (Access × LoopState) :=
  if s.size = 0 then none
  else
    let a : Access := ⟨s.bufPtr.toNat, s.dataPtr.toNat⟩
    some (a, ⟨s.size - 1, s.bufPtr + 1, s.dataPtr - 1, body a s.written⟩)

abbrev LoopStep (body : Access → Memory UInt8 → Memory UInt8) (s : LoopState) (a : Access)
    (t : LoopState) : Prop := loopStep body s = some (a, t)

/-- The accesses of `n` rounds, by the values of the two pointers. -/
def accessesFrom : Nat → UInt64 → UInt64 → List Access
  | 0, _, _ => []
  | n + 1, bufPtr, dataPtr =>
    ⟨bufPtr.toNat, dataPtr.toNat⟩ :: accessesFrom n (bufPtr + 1) (dataPtr - 1)

/-- The `n` bytes at the pointer upwards, against the `n` bytes of the data downwards. -/
def touched (ptr n : Nat) : List Access := (List.range n).map fun i => ⟨ptr + i, n - 1 - i⟩

/-- The loop always stops, after exactly these accesses and in this state. -/
def LoopRuns (body : Access → Memory UInt8 → Memory UInt8) (start : LoopState)
    (accesses : List Access) (final : LoopState) : Prop :=
  ∀ as t, (Run (LoopStep body) start as t ∧ ∀ a u, ¬ LoopStep body t a u) ↔
    as = accesses ∧ t = final

section Loops
variable (body : Access → Memory UInt8 → Memory UInt8)

theorem loopStep_succ {n : Nat} (hn : n + 1 < 2 ^ 64) (bufPtr dataPtr : UInt64)
    (written : Memory UInt8) :
    loopStep body ⟨UInt64.ofNat (n + 1), bufPtr, dataPtr, written⟩ =
      some (⟨bufPtr.toNat, dataPtr.toNat⟩,
        ⟨UInt64.ofNat n, bufPtr + 1, dataPtr - 1, body ⟨bufPtr.toNat, dataPtr.toNat⟩ written⟩) := by
  have hne : UInt64.ofNat (n + 1) ≠ 0 := by
    intro hzero
    have hnat := congrArg UInt64.toNat hzero
    rw [UInt64.toNat_ofNat_of_lt' hn] at hnat
    exact Nat.succ_ne_zero n hnat
  unfold loopStep
  rw [if_neg hne, Buffer.ofNat_succ_sub_one]

theorem loopStep_zero (bufPtr dataPtr : UInt64) (written : Memory UInt8) (a : Access)
    (t : LoopState) : ¬ LoopStep body ⟨0, bufPtr, dataPtr, written⟩ a t := by
  intro h
  unfold LoopStep loopStep at h
  rw [if_pos rfl] at h
  cases h

theorem loopStep_deterministic (s : LoopState) (a : Access) (t : LoopState) (c : Access)
    (u : LoopState) (h : LoopStep body s a t) (h' : LoopStep body s c u) : a = c ∧ t = u := by
  have heq := Option.some.inj (h.symm.trans h')
  exact ⟨congrArg Prod.fst heq, congrArg Prod.snd heq⟩

/-- Every round lowers the counter, so the loop runs through the accesses and stops. -/
theorem loop_run : ∀ {n : Nat}, n < 2 ^ 64 → ∀ (bufPtr dataPtr : UInt64) (written : Memory UInt8),
    Run (LoopStep body) ⟨UInt64.ofNat n, bufPtr, dataPtr, written⟩ (accessesFrom n bufPtr dataPtr)
      ⟨0, bufPtr + UInt64.ofNat n, dataPtr - UInt64.ofNat n,
        (accessesFrom n bufPtr dataPtr).foldl (fun m a => body a m) written⟩
  | 0, _, bufPtr, dataPtr, written => by
    simpa [accessesFrom] using Run.start
  | n + 1, hn, bufPtr, dataPtr, written => by
    have hrest := loop_run (Nat.lt_of_succ_lt hn) (bufPtr + 1) (dataPtr - 1)
      (body ⟨bufPtr.toNat, dataPtr.toNat⟩ written)
    have hbuf : bufPtr + 1 + UInt64.ofNat n = bufPtr + UInt64.ofNat (n + 1) := by
      rw [UInt64.ofNat_add, UInt64.add_assoc, UInt64.add_comm 1]
      rfl
    have hdata : dataPtr - 1 - UInt64.ofNat n = dataPtr - UInt64.ofNat (n + 1) := by
      rw [UInt64.ofNat_add]
      grind
    rw [hbuf, hdata] at hrest
    exact Run.cons (loopStep_succ body hn bufPtr dataPtr written) hrest

theorem loop_runs {n : Nat} (hn : n < 2 ^ 64) (bufPtr dataPtr : UInt64) (written : Memory UInt8) :
    LoopRuns body ⟨UInt64.ofNat n, bufPtr, dataPtr, written⟩ (accessesFrom n bufPtr dataPtr)
      ⟨0, bufPtr + UInt64.ofNat n, dataPtr - UInt64.ofNat n,
        (accessesFrom n bufPtr dataPtr).foldl (fun m a => body a m) written⟩ := by
  have hrun := loop_run body hn bufPtr dataPtr written
  have hstops := loopStep_zero body (bufPtr + UInt64.ofNat n) (dataPtr - UInt64.ofNat n)
    ((accessesFrom n bufPtr dataPtr).foldl (fun m a => body a m) written)
  intro as t
  constructor
  · rintro ⟨h, hend⟩
    exact Run.unique (loopStep_deterministic body) h hend hrun hstops
  · rintro ⟨rfl, rfl⟩
    exact ⟨hrun, hstops⟩

end Loops

/-- Where no pointer wraps around, the accesses are those of the two areas. -/
theorem accessesFrom_eq : ∀ (n : Nat) (bufPtr : UInt64), bufPtr.toNat + n < 2 ^ 64 →
    accessesFrom n bufPtr (UInt64.ofNat n - 1) = touched bufPtr.toNat n
  | 0, _, _ => rfl
  | n + 1, bufPtr, h => by
    have hnext : (bufPtr + 1).toNat = bufPtr.toNat + 1 := by
      rw [UInt64.toNat_add]
      exact Nat.mod_eq_of_lt (by change bufPtr.toNat + 1 < _; omega)
    have hdata : (UInt64.ofNat n).toNat = n :=
      UInt64.toNat_ofNat_of_lt' (by change n < 2 ^ 64; omega)
    rw [accessesFrom, Buffer.ofNat_succ_sub_one, accessesFrom_eq n (bufPtr + 1) (by omega), hnext,
      hdata]
    unfold touched
    rw [List.range_succ_eq_map, List.map_cons, List.map_map]
    refine congrArg₂ List.cons ?_ (List.map_congr_left fun i _ => ?_)
    · simp
    · simp only [Function.comp_apply, Access.mk.injEq]
      omega

theorem writeReverseLoop_accesses (data : Memory UInt8) :
    ∀ (n : Nat) (bufPtr dataPtr : UInt64) (memory : Memory UInt8),
      Buffer.writeReverseLoop data n bufPtr dataPtr memory =
        ((accessesFrom n bufPtr dataPtr).foldl (fun m a => storeToBuffer data a m) memory,
          bufPtr + UInt64.ofNat n)
  | 0, bufPtr, dataPtr, memory => by simp [Buffer.writeReverseLoop, accessesFrom]
  | n + 1, bufPtr, dataPtr, memory => by
    rw [Buffer.writeReverseLoop, writeReverseLoop_accesses data n, accessesFrom, List.foldl_cons,
      UInt64.ofNat_add, UInt64.add_assoc, UInt64.add_comm 1]
    rfl

theorem readReverseLoop_accesses (memory : Memory UInt8) :
    ∀ (n : Nat) (bufPtr dataPtr : UInt64) (data : Memory UInt8),
      Buffer.readReverseLoop memory n bufPtr dataPtr data =
        ((accessesFrom n bufPtr dataPtr).foldl (fun m a => loadFromBuffer memory a m) data,
          bufPtr + UInt64.ofNat n)
  | 0, bufPtr, dataPtr, data => by simp [Buffer.readReverseLoop, accessesFrom]
  | n + 1, bufPtr, dataPtr, data => by
    rw [Buffer.readReverseLoop, readReverseLoop_accesses memory n, accessesFrom, List.foldl_cons,
      UInt64.ofNat_add, UInt64.add_assoc, UInt64.add_comm 1]
    rfl

/-! Calls on one buffer. -/

/-- The bytes of an object of the caller; no object takes half of the address space. -/
structure ByteArea where
  bytes : List UInt8
  length_lt : bytes.length < 2 ^ 63

namespace ByteArea

def memory (d : ByteArea) : Memory UInt8 := bytesAt d.bytes

def size (d : ByteArea) : UInt64 := UInt64.ofNat d.bytes.length

def reverse (d : ByteArea) : ByteArea :=
  ⟨d.bytes.reverse, by rw [List.length_reverse]; exact d.length_lt⟩

theorem size_toNat (d : ByteArea) : d.size.toNat = d.bytes.length := by
  have hlen := d.length_lt
  exact UInt64.toNat_ofNat_of_lt' (by change d.bytes.length < 2 ^ 64; omega)

theorem size_lt (d : ByteArea) : d.size.toNat < 2 ^ 63 := by
  rw [size_toNat]
  exact d.length_lt

theorem size_reverse (d : ByteArea) : d.reverse.size = d.size :=
  congrArg UInt64.ofNat List.length_reverse

theorem reverse_reverse (d : ByteArea) : d.reverse.reverse = d := by
  unfold reverse
  simp

theorem slice_memory (d : ByteArea) : Memory.slice d.memory 0 d.size.toNat = d.bytes := by
  rw [size_toNat]
  exact Memory.slice_ofList 0 d.bytes

end ByteArea

/-- A call on a buffer, with the caller's bytes that it sends or overwrites. -/
inductive BufferCall where
  | reset
  | writeBytes (d : ByteArea)
  | readBytes (d : ByteArea)
  | writeBytesInReverseOrder (d : ByteArea)
  | readBytesInReverseOrder (d : ByteArea)

namespace BufferCall

/-- The call; its result is what the caller's bytes are afterwards. -/
def act : BufferCall → Action Buffer (List UInt8)
  | reset => do
    modify Buffer.reset
    return []
  | writeBytes d => do
    Buffer.writeBytes d.memory d.size
    return d.bytes
  | readBytes d => do
    let data ← Buffer.readBytes d.memory d.size
    return Memory.slice data 0 d.bytes.length
  | writeBytesInReverseOrder d => do
    Buffer.writeBytesInReverseOrder d.memory d.size
    return d.bytes
  | readBytesInReverseOrder d => do
    let data ← Buffer.readBytesInReverseOrder d.memory d.size
    return Memory.slice data 0 d.bytes.length

/-- The call in plain order that should do the same to the buffer. -/
def plain : BufferCall → BufferCall
  | writeBytesInReverseOrder d => writeBytes d.reverse
  | readBytesInReverseOrder d => readBytes d
  | c => c

/-- What the caller's bytes are, from those of the call in plain order. -/
def turn : BufferCall → List UInt8 → List UInt8
  | writeBytesInReverseOrder _ => List.reverse
  | readBytesInReverseOrder _ => List.reverse
  | _ => id

def step (b : Buffer) (c : BufferCall) : Buffer × Except Failure (List UInt8) :=
  match c.act.run b with
  | .ok bytes b' => (b', .ok bytes)
  | .error e b' => (b', .error e)

end BufferCall

namespace Buffer
section Agreement
variable {b : Buffer} (h : b.Valid) (d : ByteArea)
include h

theorem writes_cases :
    (∃ e, (writeBytesInReverseOrder d.memory d.size).run b = .error e b ∧
      (writeBytes d.reverse.memory d.reverse.size).run b = .error e b) ∨
    (d.bytes.length ≤ b.room ∧
      (writeBytesInReverseOrder d.memory d.size).run b = .ok () (b.append d.bytes.reverse) ∧
      (writeBytes d.reverse.memory d.reverse.size).run b = .ok () (b.append d.bytes.reverse)) := by
  have hsize := d.size_toNat
  have hsame := congrArg UInt64.toNat d.size_reverse
  rcases Nat.lt_or_ge b.room d.bytes.length with hfull | hfit
  · refine Or.inl ⟨_, writeBytesInReverseOrder_throws h d.memory d.size_lt (by omega), ?_⟩
    exact writeBytes_throws h d.reverse.memory d.reverse.size_lt (by omega)
  · have hreverse := writeBytesInReverseOrder_fits h d.memory d.size_lt (by omega)
    have hplain := writeBytes_fits h d.reverse.memory d.reverse.size_lt (by omega)
    rw [d.slice_memory] at hreverse
    rw [d.reverse.slice_memory] at hplain
    exact Or.inr ⟨hfit, hreverse, hplain⟩

/-- Both reads take the next bytes, each in its order, or both refuse. -/
theorem reads_cases :
    (∃ e, (readBytesInReverseOrder d.memory d.size).run b = .error e b ∧
      (readBytes d.memory d.size).run b = .error e b) ∨
    (∃ bs, bs.length = d.bytes.length ∧ b.Readable bs ∧
      (readBytesInReverseOrder d.memory d.size).run b =
        .ok (Memory.store d.memory 0 bs.reverse) (b.skip bs.length) ∧
      (readBytes d.memory d.size).run b = .ok (Memory.store d.memory 0 bs) (b.skip bs.length)) := by
  rcases Nat.lt_or_ge b.bufEnd.toNat (b.bufReadPtr.toNat + d.size.toNat) with hshort | hin
  · exact Or.inl ⟨_, readBytesInReverseOrder_throws h d.memory d.size_lt hshort,
      readBytes_throws h d.memory d.size_lt hshort⟩
  · have hbs := readable_slice hin
    have hlen : d.size.toNat = (Memory.slice b.memory b.bufReadPtr.toNat d.size.toNat).length :=
      (Memory.slice_length _ _ _).symm
    exact Or.inr ⟨_, hlen.symm.trans d.size_toNat, hbs,
      readBytesInReverseOrder_reads h hbs d.memory hlen, readBytes_reads h hbs d.memory hlen⟩

end Agreement
end Buffer

namespace BufferCall
section Calls
variable {b : Buffer} (h : b.Valid)
include h

/-- A call and its plain form fail alike and change nothing then, or succeed alike. -/
theorem act_cases (c : BufferCall) :
    (∃ e, c.act.run b = .error e b ∧ c.plain.act.run b = .error e b) ∨
    (∃ bs b', b'.Valid ∧ c.act.run b = .ok (c.turn bs) b' ∧ c.plain.act.run b = .ok bs b') := by
  cases c with
  | reset => exact Or.inr ⟨[], b.reset, h.reset, rfl, rfl⟩
  | writeBytes d =>
    rcases Buffer.writes_cases h d.reverse with ⟨e, _, hplain⟩ | ⟨hfit, _, hplain⟩
    · rw [d.reverse_reverse] at hplain
      exact Or.inl ⟨e, run_bind_error hplain, run_bind_error hplain⟩
    · rw [d.reverse_reverse] at hplain
      have hvalid := Buffer.append_valid h (List.length_reverse.trans_le hfit)
      exact Or.inr ⟨d.bytes, _, hvalid, run_bind_ok hplain, run_bind_ok hplain⟩
  | readBytes d =>
    rcases Buffer.reads_cases h d with ⟨e, _, hplain⟩ | ⟨bs, _, hbs, _, hplain⟩
    · exact Or.inl ⟨e, run_bind_error hplain, run_bind_error hplain⟩
    · have hvalid := Buffer.skip_valid h hbs.inside
      exact Or.inr ⟨_, _, hvalid, run_bind_ok hplain, run_bind_ok hplain⟩
  | writeBytesInReverseOrder d =>
    rcases Buffer.writes_cases h d with ⟨e, hreverse, hplain⟩ | ⟨hfit, hreverse, hplain⟩
    · exact Or.inl ⟨e, run_bind_error hreverse, run_bind_error hplain⟩
    · have hvalid := Buffer.append_valid h (List.length_reverse.trans_le hfit)
      refine Or.inr ⟨d.reverse.bytes, _, hvalid, ?_, run_bind_ok hplain⟩
      have hturn : turn (.writeBytesInReverseOrder d) d.reverse.bytes = d.bytes :=
        List.reverse_reverse d.bytes
      rw [hturn]
      exact run_bind_ok hreverse
  | readBytesInReverseOrder d =>
    rcases Buffer.reads_cases h d with ⟨e, hreverse, hplain⟩ | ⟨bs, hlen, hbs, hreverse, hplain⟩
    · exact Or.inl ⟨e, run_bind_error hreverse, run_bind_error hplain⟩
    · have hvalid := Buffer.skip_valid h hbs.inside
      refine Or.inr ⟨bs, _, hvalid, ?_, ?_⟩
      · refine (run_bind_ok hreverse).trans ?_
        rw [← hlen, ← List.length_reverse, Memory.slice_store_same]
        rfl
      · refine (run_bind_ok hplain).trans ?_
        rw [← hlen, Memory.slice_store_same]
        rfl

theorem step_plain (c : BufferCall) :
    step b c = ((step b c.plain).1, (step b c.plain).2.map c.turn) := by
  unfold step
  rcases act_cases h c with ⟨e, hact, hplain⟩ | ⟨bs, b', _, hact, hplain⟩
  · rw [hact, hplain]
    rfl
  · rw [hact, hplain]
    rfl

theorem step_valid (c : BufferCall) : (step b c).1.Valid := by
  unfold step
  rcases act_cases h c with ⟨e, hact, _⟩ | ⟨bs, b', hvalid, hact, _⟩
  · rw [hact]
    exact h
  · rw [hact]
    exact hvalid

end Calls

theorem run_plain (calls : List BufferCall) : ∀ {b : Buffer}, b.Valid →
    (Machine.run step b calls).1 = (Machine.run step b (calls.map plain)).1 ∧
    (Machine.run step b calls).2 = List.zipWith (fun c io => (c, io.2.map c.turn)) calls
      (Machine.run step b (calls.map plain)).2 ∧
    (Machine.run step b calls).1.Valid := by
  induction calls with
  | nil => exact fun h => ⟨rfl, rfl, h⟩
  | cons c calls ih =>
    intro b h
    have hstate : (step b c).1 = (step b c.plain).1 := by rw [step_plain h c]
    have hanswer : (step b c).2 = (step b c.plain).2.map c.turn := by rw [step_plain h c]
    obtain ⟨hfinal, htrace, hvalid⟩ := ih (step_valid h c)
    rw [List.map_cons, Machine.run_cons, Machine.run_cons, ← hstate]
    refine ⟨hfinal, ?_, hvalid⟩
    rw [List.zipWith_cons_cons, hanswer, htrace]

end BufferCall

namespace Buffer

/-- The reverse write of `d` against the plain write of the reversed bytes. -/
structure WritesAgree (b : Buffer) (d : ByteArea) : Prop where
  same : (writeBytesInReverseOrder d.memory d.size).run b =
    (writeBytes d.reverse.memory d.reverse.size).run b
  refused : ∀ e b', (writeBytesInReverseOrder d.memory d.size).run b = .error e b' → b' = b
  loop : ∀ b', (writeBytesInReverseOrder d.memory d.size).run b = .ok () b' →
    ∃ final, LoopRuns (storeToBuffer d.memory) ⟨d.size, b.bufWritePtr, d.size - 1, b.memory⟩
        (touched b.bufWritePtr.toNat d.bytes.length) final ∧
      b' = { b with memory := final.written, bufWritePtr := final.bufPtr }

/-- The reverse read into `d` against the plain read of as many bytes. -/
structure ReadsAgree (b : Buffer) (d : ByteArea) : Prop where
  refused_iff : ∀ e b', (readBytesInReverseOrder d.memory d.size).run b = .error e b' ↔
    (readBytes d.memory d.size).run b = .error e b'
  refused : ∀ e b', (readBytesInReverseOrder d.memory d.size).run b = .error e b' → b' = b
  same : ∀ back b', (readBytesInReverseOrder d.memory d.size).run b = .ok back b' →
    ∃ data, (readBytes d.memory d.size).run b = .ok data b' ∧
      Memory.slice back 0 d.bytes.length = (Memory.slice data 0 d.bytes.length).reverse
  loop : ∀ back b', (readBytesInReverseOrder d.memory d.size).run b = .ok back b' →
    ∃ final, LoopRuns (loadFromBuffer b.memory) ⟨d.size, b.bufReadPtr, d.size - 1, d.memory⟩
        (touched b.bufReadPtr.toNat d.bytes.length) final ∧
      back = final.written ∧ b' = { b with bufReadPtr := final.bufPtr }

theorem writeBytesInReverseOrder_stores {b b' : Buffer} {data : Memory UInt8} {size : UInt64}
    (hrun : (writeBytesInReverseOrder data size).run b = .ok () b') :
    b' = { b with
      memory := (accessesFrom size.toNat b.bufWritePtr (size - 1)).foldl
        (fun m a => storeToBuffer data a m) b.memory
      bufWritePtr := b.bufWritePtr + size } := by
  dsimp only [writeBytesInReverseOrder] at hrun
  rw [run_get_bind] at hrun
  split at hrun
  · cases hrun
  · rw [writeReverseLoop_accesses, UInt64.ofNat_toNat] at hrun
    cases hrun
    rfl

theorem readBytesInReverseOrder_loads {b b' : Buffer} {data back : Memory UInt8} {size : UInt64}
    (hrun : (readBytesInReverseOrder data size).run b = .ok back b') :
    back = (accessesFrom size.toNat b.bufReadPtr (size - 1)).foldl
        (fun m a => loadFromBuffer b.memory a m) data ∧
      b' = { b with bufReadPtr := b.bufReadPtr + size } := by
  dsimp only [readBytesInReverseOrder] at hrun
  rw [run_get_bind] at hrun
  split at hrun
  · cases hrun
  · rw [readReverseLoop_accesses, UInt64.ofNat_toNat] at hrun
    cases hrun
    exact ⟨rfl, rfl⟩

section Agreement
variable {b : Buffer} (h : b.Valid) (d : ByteArea)
include h

/-- On areas inside the address space a loop touches their bytes and nothing else. -/
theorem loop_touches (body : Access → Memory UInt8 → Memory UInt8) {ptr : UInt64}
    (hptr : ptr.toNat ≤ b.bufEnd.toNat) (written : Memory UInt8) :
    LoopRuns body ⟨d.size, ptr, d.size - 1, written⟩ (touched ptr.toNat d.bytes.length)
      ⟨0, ptr + d.size, d.size - 1 - d.size,
        (accessesFrom d.size.toNat ptr (d.size - 1)).foldl (fun m a => body a m) written⟩ := by
  have hend := h.end_le
  have hlen := d.length_lt
  have hloop := loop_runs body (n := d.bytes.length) (by omega) ptr (d.size - 1) written
  rw [d.size_toNat, ← accessesFrom_eq d.bytes.length ptr (by omega)]
  exact hloop

theorem writesAgree : WritesAgree b d := by
  have hloop := loop_touches h d (storeToBuffer d.memory) h.write_le b.memory
  constructor
  · rcases writes_cases h d with ⟨e, hreverse, hplain⟩ | ⟨_, hreverse, hplain⟩
    · exact hreverse.trans hplain.symm
    · exact hreverse.trans hplain.symm
  · intro e b' hrun
    rcases writes_cases h d with ⟨e', hreverse, _⟩ | ⟨_, hreverse, _⟩
    · rw [hreverse] at hrun
      cases hrun
      rfl
    · rw [hreverse] at hrun
      cases hrun
  · intro b' hrun
    exact ⟨_, hloop, writeBytesInReverseOrder_stores hrun⟩

theorem readsAgree : ReadsAgree b d := by
  have hloop := loop_touches h d (loadFromBuffer b.memory) h.read_le d.memory
  refine ⟨?_, ?_, ?_, ?_⟩
  · intro e b'
    rcases reads_cases h d with ⟨e', hreverse, hplain⟩ | ⟨bs, _, _, hreverse, hplain⟩
    · rw [hreverse, hplain]
    · rw [hreverse, hplain]
      exact ⟨nofun, nofun⟩
  · intro e b' hrun
    rcases reads_cases h d with ⟨e', hreverse, _⟩ | ⟨bs, _, _, hreverse, _⟩
    · rw [hreverse] at hrun
      cases hrun
      rfl
    · rw [hreverse] at hrun
      cases hrun
  · intro back b' hrun
    rcases reads_cases h d with ⟨e', hreverse, _⟩ | ⟨bs, hlen, _, hreverse, hplain⟩
    · rw [hreverse] at hrun
      cases hrun
    · rw [hreverse] at hrun
      cases hrun
      refine ⟨_, hplain, ?_⟩
      have hback := Memory.slice_store_same (m := d.memory) (d := 0) bs.reverse
      rw [List.length_reverse] at hback
      rw [← hlen, hback, Memory.slice_store_same]
  · intro back b' hrun
    obtain ⟨hback, hstate⟩ := readBytesInReverseOrder_loads hrun
    exact ⟨_, hloop, hback, hstate⟩

end Agreement

/-- In every order of calls the reverse operations do what the plain ones do, and in every state
reached so both operations agree with them on any bytes. -/
theorem reverseOrder_agrees {b : Buffer} (h : b.Valid) (calls : List BufferCall) :
    (Machine.run BufferCall.step b calls).1 =
        (Machine.run BufferCall.step b (calls.map BufferCall.plain)).1 ∧
      (Machine.run BufferCall.step b calls).2 =
        List.zipWith (fun c io => (c, io.2.map c.turn)) calls
          (Machine.run BufferCall.step b (calls.map BufferCall.plain)).2 ∧
      ∀ d : ByteArea, WritesAgree (Machine.run BufferCall.step b calls).1 d ∧
        ReadsAgree (Machine.run BufferCall.step b calls).1 d := by
  obtain ⟨hstate, htrace, hvalid⟩ := BufferCall.run_plain calls h
  exact ⟨hstate, htrace, fun d => ⟨writesAgree hvalid d, readsAgree hvalid d⟩⟩

theorem reverseOrder_agrees_fresh :
    (Machine.run BufferCall.step (new (fun _ => 0) 4096)
        [.writeBytesInReverseOrder ⟨[1, 2, 3], by decide⟩,
          .readBytesInReverseOrder ⟨[0, 0], by decide⟩]).1 =
      (Machine.run BufferCall.step (new (fun _ => 0) 4096)
        [.writeBytes ⟨[3, 2, 1], by decide⟩, .readBytes ⟨[0, 0], by decide⟩]).1 :=
  (reverseOrder_agrees (valid_new_page _)
    [.writeBytesInReverseOrder ⟨[1, 2, 3], by decide⟩,
      .readBytesInReverseOrder ⟨[0, 0], by decide⟩]).1

example : (Machine.run BufferCall.step (new (fun _ => 0) 4096)
    [.writeBytesInReverseOrder ⟨[1, 2, 3], by decide⟩,
      .readBytesInReverseOrder ⟨[0, 0], by decide⟩]).2.map Prod.snd =
    [.ok [1, 2, 3], .ok [2, 3]] := rfl

end Buffer
end IpcChecker
