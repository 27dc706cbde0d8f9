import IpcChecker.Host

/-!
# The message buffer

`Buffer` with its four pointers as addresses. The bounds checks add a size to a
pointer in 64 bits; on a valid buffer they are right for every size below `2 ^ 63`.
A successful write appends, a successful read returns the next unread bytes.
-/

namespace IpcChecker
open Shared
set_option autoImplicit false

def kBufferCapacityInBytes : UInt64 := 10000

/-- `memory` holds the bytes of `_buffer` at their addresses. -/
structure Buffer where
  memory : Memory UInt8
  buf : UInt64
  bufEnd : UInt64
  bufReadPtr : UInt64
  bufWritePtr : UInt64

namespace Buffer

/-- The constructor of a buffer whose bytes start at the given address. -/
def new (memory : Memory UInt8) (buffer : UInt64) : Buffer where
  memory := memory
  buf := buffer
  bufEnd := buffer + kBufferCapacityInBytes
  bufReadPtr := buffer
  bufWritePtr := buffer

def reset (b : Buffer) : Buffer := { b with bufReadPtr := b.buf, bufWritePtr := b.buf }

def capacity (_ : Buffer) : UInt64 := kBufferCapacityInBytes

def usedBytes (b : Buffer) : UInt64 := b.bufWritePtr - b.buf

def writeBytes (data : Memory UInt8) (size : UInt64) : Action Buffer Unit := do
  let b ← get
  if b.bufWritePtr + size > b.bufEnd then
    throw (.exception "message is not fit in buffer")
  else
    set { b with
      memory := Memory.memcpy b.memory b.bufWritePtr.toNat data 0 size.toNat
      bufWritePtr := b.bufWritePtr + size }

/-- Returns the bytes of the destination after the copy. -/
def readBytes (data : Memory UInt8) (size : UInt64) : Action Buffer (Memory UInt8) := do
  let b ← get
  if b.bufReadPtr + size > b.bufEnd then
    throw (.exception "not enough message in buffer")
  else
    set { b with bufReadPtr := b.bufReadPtr + size }
    return Memory.memcpy data 0 b.memory b.bufReadPtr.toNat size.toNat

/-- `while (size--) *buf_ptr++ = *data_ptr--;` -/
def writeReverseLoop (data : Memory UInt8) :
    Nat → UInt64 → UInt64 → Memory UInt8 → Memory UInt8 × UInt64
  | 0, bufPtr, _, memory => (memory, bufPtr)
  | size + 1, bufPtr, dataPtr, memory =>
    writeReverseLoop data size (bufPtr + 1) (dataPtr - 1)
      (Function.update memory bufPtr.toNat (data dataPtr.toNat))

/-- `while (size--) *data_ptr-- = *buf_ptr++;` -/
def readReverseLoop (memory : Memory UInt8) :
    Nat → UInt64 → UInt64 → Memory UInt8 → Memory UInt8 × UInt64
  | 0, bufPtr, _, data => (data, bufPtr)
  | size + 1, bufPtr, dataPtr, data =>
    readReverseLoop memory size (bufPtr + 1) (dataPtr - 1)
      (Function.update data dataPtr.toNat (memory bufPtr.toNat))

def writeBytesInReverseOrder (data : Memory UInt8) (size : UInt64) : Action Buffer Unit := do
  let b ← get
  if b.bufWritePtr + size > b.bufEnd then
    throw (.exception "message is not fit in buffer")
  else
    let (memory, bufPtr) := writeReverseLoop data size.toNat b.bufWritePtr (size - 1) b.memory
    set { b with memory, bufWritePtr := bufPtr }

def readBytesInReverseOrder (data : Memory UInt8) (size : UInt64) :
    Action Buffer (Memory UInt8) := do
  let b ← get
  if b.bufReadPtr + size > b.bufEnd then
    throw (.exception "not enough message in buffer")
  else
    let (data, bufPtr) := readReverseLoop b.memory size.toNat b.bufReadPtr (size - 1) data
    set { b with bufReadPtr := bufPtr }
    return data

/-- The pointers lie in an object of the right size in the lower half of the address space. -/
structure Valid (b : Buffer) : Prop where
  end_eq : b.bufEnd.toNat = b.buf.toNat + kBufferCapacityInBytes.toNat
  end_le : b.bufEnd.toNat ≤ 2 ^ 63
  read_ge : b.buf.toNat ≤ b.bufReadPtr.toNat
  read_le : b.bufReadPtr.toNat ≤ b.bufEnd.toNat
  write_ge : b.buf.toNat ≤ b.bufWritePtr.toNat
  write_le : b.bufWritePtr.toNat ≤ b.bufEnd.toNat

/-- The bytes that can still be written. -/
def room (b : Buffer) : Nat := b.bufEnd.toNat - b.bufWritePtr.toNat

/-- The buffer after `bs` was written. -/
def append (b : Buffer) (bs : List UInt8) : Buffer :=
  { b with
    memory := Memory.store b.memory b.bufWritePtr.toNat bs
    bufWritePtr := b.bufWritePtr + UInt64.ofNat bs.length }

/-- The buffer after `n` bytes were read. -/
def skip (b : Buffer) (n : Nat) : Buffer := { b with bufReadPtr := b.bufReadPtr + UInt64.ofNat n }

/-- The next bytes to be read are `bs`. -/
structure Readable (b : Buffer) (bs : List UInt8) : Prop where
  bytes : Memory.slice b.memory b.bufReadPtr.toNat bs.length = bs
  inside : b.bufReadPtr.toNat + bs.length ≤ b.bufEnd.toNat

theorem valid_new (memory : Memory UInt8) {buffer : UInt64} (h : buffer.toNat + 10000 ≤ 2 ^ 63) :
    (new memory buffer).Valid := by
  have hend : (buffer + kBufferCapacityInBytes).toNat = buffer.toNat + 10000 := by
    rw [UInt64.toNat_add]
    exact Nat.mod_eq_of_lt (by change buffer.toNat + 10000 < _; omega)
  constructor
  all_goals simp only [new, hend]
  all_goals first | exact h | rfl | omega

theorem valid_new_page (memory : Memory UInt8) : (new memory 4096).Valid :=
  valid_new memory (by decide)

theorem Valid.reset {b : Buffer} (h : b.Valid) : b.reset.Valid := by
  have hend := h.end_eq
  exact ⟨hend, h.end_le, Nat.le_refl _, hend ▸ Nat.le_add_right _ _, Nat.le_refl _,
    hend ▸ Nat.le_add_right _ _⟩

section Pointers
variable {b : Buffer} (h : b.Valid)
include h

theorem append_ptr {bs : List UInt8} (hfit : bs.length ≤ b.room) :
    (b.append bs).bufWritePtr.toNat = b.bufWritePtr.toNat + bs.length := by
  have hend := h.end_le
  have hw := h.write_le
  unfold room at hfit
  unfold append
  rw [UInt64.toNat_add, UInt64.toNat_ofNat_of_lt' (by change _ < 2 ^ 64; omega)]
  exact Nat.mod_eq_of_lt (by omega)

theorem append_valid {bs : List UInt8} (hfit : bs.length ≤ b.room) : (b.append bs).Valid := by
  have hptr := append_ptr h hfit
  have hw := h.write_le
  have hg := h.write_ge
  unfold room at hfit
  exact { h with
    write_ge := by rw [hptr]; exact Nat.le_add_right_of_le hg
    write_le := by rw [hptr]; change _ ≤ b.bufEnd.toNat; omega }

theorem append_room {bs : List UInt8} (hfit : bs.length ≤ b.room) :
    (b.append bs).room + bs.length = b.room := by
  have hptr := append_ptr h hfit
  have hw := h.write_le
  unfold room at *
  rw [hptr]
  change b.bufEnd.toNat - _ + _ = _
  omega

theorem append_append {xs ys : List UInt8} (hfit : xs.length ≤ b.room) :
    (b.append xs).append ys = b.append (xs ++ ys) := by
  have hptr := append_ptr h hfit
  have hmemory : Memory.store (b.append xs).memory (b.append xs).bufWritePtr.toNat ys =
      Memory.store b.memory b.bufWritePtr.toNat (xs ++ ys) := by
    rw [hptr, Memory.store_append]
    rfl
  have hend : (b.append xs).bufWritePtr + UInt64.ofNat ys.length =
      b.bufWritePtr + UInt64.ofNat (xs ++ ys).length := by
    rw [List.length_append, UInt64.ofNat_add, ← UInt64.add_assoc]
    rfl
  unfold append at *
  rw [hmemory, hend]

omit h in
theorem append_frame {bs : List UInt8} {a : Nat} (ha : a < b.bufWritePtr.toNat) :
    (b.append bs).memory a = b.memory a :=
  Memory.store_outside _ _ _ (Or.inl ha)

/-! The write operations append. -/

theorem writeCheck_iff {size : UInt64} (hs : size.toNat < 2 ^ 63) :
    b.bufWritePtr + size > b.bufEnd ↔ ¬ size.toNat ≤ b.room := by
  have hend := h.end_le
  have hw := h.write_le
  unfold room
  change b.bufEnd < _ ↔ _
  rw [UInt64.lt_iff_toNat_lt, UInt64.toNat_add, Nat.mod_eq_of_lt (by omega)]
  omega

theorem writeBytes_fits (data : Memory UInt8) {size : UInt64} (hs : size.toNat < 2 ^ 63)
    (hfit : size.toNat ≤ b.room) :
    (writeBytes data size).run b = .ok () (b.append (Memory.slice data 0 size.toNat)) := by
  have hcheck := mt (writeCheck_iff h hs).mp (not_not_intro hfit)
  dsimp only [writeBytes]
  rw [run_get_bind, if_neg hcheck, Memory.memcpy_eq_store]
  unfold append
  rw [Memory.slice_length, UInt64.ofNat_toNat]
  rfl

theorem writeBytes_throws (data : Memory UInt8) {size : UInt64} (hs : size.toNat < 2 ^ 63)
    (hfull : b.room < size.toNat) :
    (writeBytes data size).run b = .error (.exception "message is not fit in buffer") b := by
  have hcheck := (writeCheck_iff h hs).mpr (by omega)
  dsimp only [writeBytes]
  rw [run_get_bind, if_pos hcheck]
  rfl

end Pointers

theorem slice_reverse_succ (data : Memory UInt8) (n : Nat) :
    (Memory.slice data 0 (n + 1)).reverse = data n :: (Memory.slice data 0 n).reverse := by
  rw [Memory.slice_add, Nat.zero_add, List.reverse_append]
  simp [Memory.slice]

theorem ofNat_succ_sub_one (n : Nat) : UInt64.ofNat (n + 1) - 1 = UInt64.ofNat n := by
  rw [UInt64.ofNat_add]
  exact UInt64.add_sub_cancel _ _

/-- The downward loop stores the reversed data. -/
theorem writeReverseLoop_eq (data : Memory UInt8) (n : Nat) : ∀ (bufPtr : UInt64)
    (memory : Memory UInt8), bufPtr.toNat + n < 2 ^ 64 →
    writeReverseLoop data n bufPtr (UInt64.ofNat n - 1) memory =
      (Memory.store memory bufPtr.toNat (Memory.slice data 0 n).reverse,
        bufPtr + UInt64.ofNat n) := by
  induction n with
  | zero =>
    intro bufPtr memory _
    simp [writeReverseLoop]
  | succ n ih =>
    intro bufPtr memory hlt
    have hnext : (bufPtr + 1).toNat = bufPtr.toNat + 1 := by
      rw [UInt64.toNat_add]
      exact Nat.mod_eq_of_lt (by change bufPtr.toNat + 1 < _; omega)
    have hdata : (UInt64.ofNat n).toNat = n :=
      UInt64.toNat_ofNat_of_lt' (by change n < 2 ^ 64; omega)
    rw [writeReverseLoop, ofNat_succ_sub_one, ih _ _ (by omega), hnext, hdata,
      slice_reverse_succ, Memory.store_cons, UInt64.ofNat_add, UInt64.add_assoc,
      UInt64.add_comm 1]
    rfl

/-- The upward loop fills the destination from its end. -/
theorem readReverseLoop_eq (memory : Memory UInt8) (n : Nat) : ∀ (bufPtr : UInt64)
    (data : Memory UInt8), bufPtr.toNat + n < 2 ^ 64 →
    readReverseLoop memory n bufPtr (UInt64.ofNat n - 1) data =
      (Memory.store data 0 (Memory.slice memory bufPtr.toNat n).reverse,
        bufPtr + UInt64.ofNat n) := by
  induction n with
  | zero =>
    intro bufPtr data _
    simp [readReverseLoop]
  | succ n ih =>
    intro bufPtr data hlt
    have hnext : (bufPtr + 1).toNat = bufPtr.toNat + 1 := by
      rw [UInt64.toNat_add]
      exact Nat.mod_eq_of_lt (by change bufPtr.toNat + 1 < _; omega)
    have hdata : (UInt64.ofNat n).toNat = n :=
      UInt64.toNat_ofNat_of_lt' (by change n < 2 ^ 64; omega)
    have hsplit : (Memory.slice memory bufPtr.toNat (n + 1)).reverse =
        (Memory.slice memory (bufPtr.toNat + 1) n).reverse ++ [memory bufPtr.toNat] := by
      rw [Nat.add_comm n 1, Memory.slice_add, List.reverse_append]
      simp [Memory.slice]
    rw [readReverseLoop, ofNat_succ_sub_one, ih _ _ (by omega), hnext, hdata, hsplit,
      Memory.store_append, UInt64.ofNat_add, UInt64.add_assoc, UInt64.add_comm 1]
    rw [Memory.store_one, Memory.store_update _ _ _ _ (by simp)]
    simp

theorem readable_slice {b : Buffer} {n : Nat} (hin : b.bufReadPtr.toNat + n ≤ b.bufEnd.toNat) :
    b.Readable (Memory.slice b.memory b.bufReadPtr.toNat n) :=
  ⟨by rw [Memory.slice_length], by rw [Memory.slice_length]; exact hin⟩

section Operations
variable {b : Buffer} (h : b.Valid)
include h

theorem writeBytesInReverseOrder_fits (data : Memory UInt8) {size : UInt64}
    (hs : size.toNat < 2 ^ 63) (hfit : size.toNat ≤ b.room) :
    (writeBytesInReverseOrder data size).run b =
      .ok () (b.append (Memory.slice data 0 size.toNat).reverse) := by
  have hcheck := mt (writeCheck_iff h hs).mp (not_not_intro hfit)
  have hw := h.write_le
  have hend := h.end_le
  have hloop := writeReverseLoop_eq data size.toNat b.bufWritePtr b.memory (by omega)
  rw [UInt64.ofNat_toNat] at hloop
  dsimp only [writeBytesInReverseOrder]
  rw [run_get_bind, if_neg hcheck, hloop]
  unfold append
  rw [List.length_reverse, Memory.slice_length, UInt64.ofNat_toNat]
  rfl

theorem writeBytesInReverseOrder_throws (data : Memory UInt8) {size : UInt64}
    (hs : size.toNat < 2 ^ 63) (hfull : b.room < size.toNat) :
    (writeBytesInReverseOrder data size).run b =
      .error (.exception "message is not fit in buffer") b := by
  have hcheck := (writeCheck_iff h hs).mpr (by omega)
  dsimp only [writeBytesInReverseOrder]
  rw [run_get_bind, if_pos hcheck]
  rfl

theorem readCheck_iff {size : UInt64} (hs : size.toNat < 2 ^ 63) :
    b.bufReadPtr + size > b.bufEnd ↔ b.bufEnd.toNat < b.bufReadPtr.toNat + size.toNat := by
  have hend := h.end_le
  have hr := h.read_le
  change b.bufEnd < _ ↔ _
  rw [UInt64.lt_iff_toNat_lt, UInt64.toNat_add, Nat.mod_eq_of_lt (by omega)]

theorem Readable.length_le {bs : List UInt8} (hbs : b.Readable bs) : bs.length ≤ 10000 := by
  have hin := hbs.inside
  have hread := h.read_ge
  have hend : b.bufEnd.toNat = b.buf.toNat + 10000 := h.end_eq
  omega

theorem readBytes_reads {bs : List UInt8} (hbs : b.Readable bs) (data : Memory UInt8)
    {size : UInt64} (hsize : size.toNat = bs.length) :
    (readBytes data size).run b = .ok (Memory.store data 0 bs) (b.skip bs.length) := by
  have hin := hbs.inside
  have hend := h.end_le
  have hlen := hbs.length_le h
  have hsmall : size.toNat < 2 ^ 63 := by omega
  have hcheck := mt (readCheck_iff h hsmall).mp (by omega)
  have hslice := hbs.bytes
  rw [← hsize] at hslice
  dsimp only [readBytes]
  rw [run_get_bind, if_neg hcheck, Memory.memcpy_eq_store, hslice]
  unfold skip
  rw [← hsize, UInt64.ofNat_toNat]
  rfl

theorem readBytesInReverseOrder_reads {bs : List UInt8} (hbs : b.Readable bs)
    (data : Memory UInt8) {size : UInt64} (hsize : size.toNat = bs.length) :
    (readBytesInReverseOrder data size).run b =
      .ok (Memory.store data 0 bs.reverse) (b.skip bs.length) := by
  have hin := hbs.inside
  have hend := h.end_le
  have hlen := hbs.length_le h
  have hsmall : size.toNat < 2 ^ 63 := by omega
  have hcheck := mt (readCheck_iff h hsmall).mp (by omega)
  have hslice := hbs.bytes
  have hloop := readReverseLoop_eq b.memory size.toNat b.bufReadPtr data (by omega)
  rw [UInt64.ofNat_toNat, hsize, hslice] at hloop
  dsimp only [readBytesInReverseOrder]
  rw [run_get_bind, if_neg hcheck, hsize, hloop]
  unfold skip
  rw [← hsize, UInt64.ofNat_toNat]
  rfl

theorem readBytes_throws (data : Memory UInt8) {size : UInt64} (hs : size.toNat < 2 ^ 63)
    (hshort : b.bufEnd.toNat < b.bufReadPtr.toNat + size.toNat) :
    (readBytes data size).run b = .error (.exception "not enough message in buffer") b := by
  dsimp only [readBytes]
  rw [run_get_bind, if_pos ((readCheck_iff h hs).mpr hshort)]
  rfl

theorem readBytesInReverseOrder_throws (data : Memory UInt8) {size : UInt64}
    (hs : size.toNat < 2 ^ 63) (hshort : b.bufEnd.toNat < b.bufReadPtr.toNat + size.toNat) :
    (readBytesInReverseOrder data size).run b =
      .error (.exception "not enough message in buffer") b := by
  dsimp only [readBytesInReverseOrder]
  rw [run_get_bind, if_pos ((readCheck_iff h hs).mpr hshort)]
  rfl

theorem skip_ptr {n : Nat} (hin : b.bufReadPtr.toNat + n ≤ b.bufEnd.toNat) :
    (b.skip n).bufReadPtr.toNat = b.bufReadPtr.toNat + n := by
  have hend := h.end_le
  unfold skip
  rw [UInt64.toNat_add, UInt64.toNat_ofNat_of_lt' (by change n < 2 ^ 64; omega)]
  exact Nat.mod_eq_of_lt (by omega)

theorem skip_valid {n : Nat} (hin : b.bufReadPtr.toNat + n ≤ b.bufEnd.toNat) :
    (b.skip n).Valid := by
  have hptr := skip_ptr h hin
  have hg := h.read_ge
  exact { h with
    read_ge := by rw [hptr]; exact Nat.le_add_right_of_le hg
    read_le := by rw [hptr]; exact hin }

theorem Readable.append {xs ys : List UInt8} (hbs : b.Readable (xs ++ ys)) :
    b.Readable xs ∧ (b.skip xs.length).Readable ys := by
  have hin := hbs.inside
  have hbytes := hbs.bytes
  rw [List.length_append] at hin hbytes
  rw [Memory.slice_add] at hbytes
  obtain ⟨hxs, hys⟩ := List.append_inj hbytes (by simp)
  have hptr := skip_ptr h (n := xs.length) (by omega)
  refine ⟨⟨hxs, by omega⟩, ⟨?_, ?_⟩⟩
  · rw [hptr]
    exact hys
  · rw [hptr]
    change _ ≤ b.bufEnd.toNat
    omega

theorem readable_append {bs : List UInt8} (hptr : b.bufReadPtr = b.bufWritePtr)
    (hfit : bs.length ≤ b.room) : (b.append bs).Readable bs := by
  have hw := h.write_le
  unfold room at hfit
  constructor
  · change Memory.slice (Memory.store b.memory b.bufWritePtr.toNat bs) b.bufReadPtr.toNat _ = bs
    rw [hptr]
    exact Memory.slice_store_same _ _ _
  · change b.bufReadPtr.toNat + _ ≤ b.bufEnd.toNat
    rw [hptr]
    omega

end Operations

theorem skip_skip (b : Buffer) (m n : Nat) : (b.skip m).skip n = b.skip (m + n) := by
  unfold skip
  rw [UInt64.ofNat_add, UInt64.add_assoc]

/-- `act` appends `bs` when they fit; otherwise it throws, having appended less. -/
def Writes (act : Action Buffer Unit) (bs : List UInt8) : Prop :=
  ∀ b : Buffer, b.Valid →
    (bs.length ≤ b.room → act.run b = .ok () (b.append bs)) ∧
    (b.room < bs.length → ∃ e written, act.run b = .error e (b.append written) ∧
      written.length ≤ b.room)

/-- `act` takes the next unread bytes `bs` and returns `a`. -/
def Reads {α : Type} (act : Action Buffer α) (bs : List UInt8) (a : α) : Prop :=
  ∀ b : Buffer, b.Valid → b.Readable bs → act.run b = .ok a (b.skip bs.length)

@[simp] theorem append_nil (b : Buffer) : b.append [] = b := by
  unfold append
  rw [Memory.store_nil]
  simp

@[simp] theorem skip_zero (b : Buffer) : b.skip 0 = b := by simp [skip]

theorem writes_pure : Writes (pure ()) [] := by
  intro b _
  refine ⟨fun _ => ?_, fun hfull => absurd hfull (Nat.not_lt_zero _)⟩
  rw [append_nil]
  rfl

theorem Writes.bind {x y : Action Buffer Unit} {xs ys : List UInt8} (hx : Writes x xs)
    (hy : Writes y ys) : Writes (x >>= fun _ => y) (xs ++ ys) := by
  intro b hb
  obtain ⟨hxfits, hxthrows⟩ := hx b hb
  rw [List.length_append]
  rcases Nat.lt_or_ge b.room xs.length with hfull | hfit
  · refine ⟨fun hle => by omega, fun _ => ?_⟩
    obtain ⟨e, written, hrun, hlen⟩ := hxthrows hfull
    exact ⟨e, written, run_bind_error hrun, hlen⟩
  · have hroom := append_room hb hfit
    obtain ⟨hyfits, hythrows⟩ := hy (b.append xs) (append_valid hb hfit)
    rw [run_bind_ok (hxfits hfit)]
    constructor
    · intro hle
      rw [hyfits (by omega), append_append hb hfit]
    · intro hgt
      obtain ⟨e, written, hrun, hlen⟩ := hythrows (by omega)
      refine ⟨e, xs ++ written, ?_, by rw [List.length_append]; omega⟩
      rw [hrun, append_append hb hfit]

theorem Writes.ok_iff {act : Action Buffer Unit} {bs : List UInt8} (h : Writes act bs)
    {b : Buffer} (hb : b.Valid) (b' : Buffer) :
    act.run b = .ok () b' ↔ bs.length ≤ b.room ∧ b' = b.append bs := by
  obtain ⟨hfits, hthrows⟩ := h b hb
  constructor
  · intro hrun
    rcases Nat.lt_or_ge b.room bs.length with hfull | hfit
    · obtain ⟨e, written, herror, _⟩ := hthrows hfull
      rw [herror] at hrun
      cases hrun
    · rw [hfits hfit] at hrun
      cases hrun
      exact ⟨hfit, rfl⟩
  · rintro ⟨hfit, rfl⟩
    exact hfits hfit

theorem reads_pure {α : Type} (a : α) : Reads (pure a) [] a := by
  intro b _ _
  rw [List.length_nil, skip_zero]
  rfl

theorem Reads.bind {α β : Type} {x : Action Buffer α} {f : α → Action Buffer β}
    {xs ys : List UInt8} {a : α} {c : β} (hx : Reads x xs a) (hf : Reads (f a) ys c) :
    Reads (x >>= f) (xs ++ ys) c := by
  intro b hb hbs
  obtain ⟨hxs, hys⟩ := hbs.append hb
  rw [run_bind_ok (hx b hb hxs), hf _ (skip_valid hb hxs.inside) hys, skip_skip,
    List.length_append]

/-- What one action appended to a fully read buffer, the other reads to its end. -/
theorem Reads.after_write {α : Type} {w : Action Buffer Unit} {r : Action Buffer α}
    {bs : List UInt8} {a : α} (hr : Reads r bs a) (hw : Writes w bs) {b b' : Buffer}
    (hb : b.Valid) (hptr : b.bufReadPtr = b.bufWritePtr) (hrun : w.run b = .ok () b') :
    r.run b' = .ok a { b' with bufReadPtr := b'.bufWritePtr } := by
  obtain ⟨hfit, rfl⟩ := (hw.ok_iff hb b').mp hrun
  rw [hr _ (append_valid hb hfit) (readable_append hb hptr hfit)]
  unfold skip append
  rw [hptr]

theorem Reads.map {α β : Type} {x : Action Buffer α} {xs : List UInt8} {a : α} (g : α → β)
    (hx : Reads x xs a) : Reads (x >>= fun a => pure (g a)) xs (g a) := by
  have h := hx.bind (f := fun a => pure (g a)) (reads_pure (g a))
  rwa [List.append_nil] at h

end Buffer
end IpcChecker
