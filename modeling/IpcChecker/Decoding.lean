import IpcChecker.Connection

/-!
# Decoding arbitrary bytes

`Unpack` on a buffer with any content. It reads nothing but the buffer's own
bytes, whatever a length prefix claims, and an object it returns has the bytes it
consumed as its only encoding.
-/

namespace IpcChecker
open Shared
set_option autoImplicit false

namespace Buffer

/-- `m` holds the same bytes inside the buffer; outside it may hold any. -/
def Shares (b : Buffer) (m : Memory UInt8) : Prop :=
  ∀ a, b.buf.toNat ≤ a → a < b.bufEnd.toNat → m a = b.memory a

/-- The reader takes some bytes that stand in relation `R` to the value it returns, or
throws; which of them, and the value, depends on no byte outside the buffer. -/
def Decodes {α : Type} (act : Action Buffer α) (R : α → List UInt8 → Prop) : Prop :=
  ∀ b : Buffer, b.Valid →
    (∃ a bs, R a bs ∧ b.Readable bs ∧ ∀ m, b.Shares m →
      act.run { b with memory := m } = .ok a ({ b with memory := m }.skip bs.length)) ∨
    ∃ e n, b.bufReadPtr.toNat + n ≤ b.bufEnd.toNat ∧ ∀ m, b.Shares m →
      act.run { b with memory := m } = .error e ({ b with memory := m }.skip n)

section Decodes
variable {α β : Type} {x : Action Buffer α} {f : α → Action Buffer β}
variable {R : α → List UInt8 → Prop} {S : α → β → List UInt8 → Prop}

theorem Decodes.mono {R' : α → List UInt8 → Prop} (h : Decodes x R)
    (hmono : ∀ a bs, R a bs → R' a bs) : Decodes x R' := by
  intro b hb
  rcases h b hb with ⟨a, bs, hR, hok⟩ | hthrows
  · exact Or.inl ⟨a, bs, hmono a bs hR, hok⟩
  · exact Or.inr hthrows

theorem decodes_pure (a : α) : Decodes (pure a) fun a' bs => a' = a ∧ bs = [] := by
  intro b hb
  refine Or.inl ⟨a, [], ⟨rfl, rfl⟩, ⟨rfl, hb.read_le⟩, fun m _ => ?_⟩
  rw [List.length_nil, skip_zero]
  rfl

theorem decodes_throw (e : Failure) : Decodes (throw e : Action Buffer α) R := by
  intro b hb
  refine Or.inr ⟨e, 0, hb.read_le, fun m _ => ?_⟩
  rw [skip_zero]
  rfl

/-- What follows the bytes of the first reader is left to the second. -/
theorem Readable.of_append {b : Buffer} (hb : b.Valid) {xs ys : List UInt8} (hxs : b.Readable xs)
    (hys : (b.skip xs.length).Readable ys) : b.Readable (xs ++ ys) := by
  have hptr := skip_ptr hb hxs.inside
  have hin := hys.inside
  have hbytes := hys.bytes
  rw [hptr] at hin hbytes
  constructor
  · rw [List.length_append, Memory.slice_add, hxs.bytes]
    exact congrArg _ hbytes
  · rw [List.length_append, ← Nat.add_assoc]
    exact hin

theorem Decodes.bind (hx : Decodes x R) (hf : ∀ a, Decodes (f a) (S a)) :
    Decodes (x >>= f) fun c bs => ∃ a xs ys, R a xs ∧ S a c ys ∧ bs = xs ++ ys := by
  intro b hb
  rcases hx b hb with ⟨a, xs, hR, hxs, hrun⟩ | ⟨e, n, hin, hrun⟩
  · have hvalid := skip_valid hb hxs.inside
    have hptr := skip_ptr hb hxs.inside
    rcases hf a (b.skip xs.length) hvalid with ⟨c, ys, hS, hys, hrest⟩ | ⟨e, n, hin, hrest⟩
    · refine Or.inl ⟨c, xs ++ ys, ⟨a, xs, ys, hR, hS, rfl⟩, hxs.of_append hb hys, ?_⟩
      intro m hm
      rw [run_bind_ok (hrun m hm), List.length_append, ← skip_skip]
      exact hrest m hm
    · refine Or.inr ⟨e, xs.length + n, ?_, ?_⟩
      · rw [hptr] at hin
        rw [← Nat.add_assoc]
        exact hin
      · intro m hm
        rw [run_bind_ok (hrun m hm), ← skip_skip]
        exact hrest m hm
  · exact Or.inr ⟨e, n, hin, fun m hm => run_bind_error (hrun m hm)⟩

theorem Decodes.map {γ : Type} (g : α → γ) (hx : Decodes x R) :
    Decodes (x >>= fun a => pure (g a)) fun c bs => ∃ a, c = g a ∧ R a bs := by
  refine (hx.bind (S := fun a c bs => c = g a ∧ bs = []) fun a => decodes_pure (g a)).mono ?_
  rintro c bs ⟨a, xs, ys, hR, ⟨rfl, rfl⟩, rfl⟩
  rw [List.append_nil]
  exact ⟨a, rfl, hR⟩

end Decodes

section Shares
variable {b : Buffer} (h : b.Valid) {m : Memory UInt8}
include h

theorem Shares.valid : { b with memory := m }.Valid := { h with }

theorem Shares.readable (hm : b.Shares m) {bs : List UInt8} (hbs : b.Readable bs) :
    { b with memory := m }.Readable bs := by
  have hg := h.read_ge
  have hin := hbs.inside
  refine ⟨?_, hin⟩
  change Memory.slice m b.bufReadPtr.toNat bs.length = bs
  rw [← hbs.bytes, Memory.slice_length]
  exact Memory.slice_congr fun i hi => hm _ (by omega) (by omega)

end Shares

/-- A size below `2 ^ 63` is either refused or its bytes are the next ones of the buffer. -/
theorem readBytes_decodes (data : Memory UInt8) {size : UInt64} (hs : size.toNat < 2 ^ 63) :
    Decodes (readBytes data size) fun result bs =>
      bs.length = size.toNat ∧ result = Memory.store data 0 bs := by
  intro b hb
  rcases Nat.lt_or_ge b.bufEnd.toNat (b.bufReadPtr.toNat + size.toNat) with hshort | hin
  · refine Or.inr ⟨.exception "not enough message in buffer", 0, hb.read_le, fun m _ => ?_⟩
    rw [skip_zero]
    exact readBytes_throws (Shares.valid hb) data hs hshort
  · have hreadable := readable_slice hin
    refine Or.inl ⟨_, _, ⟨Memory.slice_length _ _ _, rfl⟩, hreadable, fun m hm => ?_⟩
    exact readBytes_reads (Shares.valid hb) (Shares.readable hb hm hreadable) data
      (Memory.slice_length _ _ _).symm

theorem readBytesInReverseOrder_decodes (data : Memory UInt8) {size : UInt64}
    (hs : size.toNat < 2 ^ 63) :
    Decodes (readBytesInReverseOrder data size) fun result bs =>
      bs.length = size.toNat ∧ result = Memory.store data 0 bs.reverse := by
  intro b hb
  rcases Nat.lt_or_ge b.bufEnd.toNat (b.bufReadPtr.toNat + size.toNat) with hshort | hin
  · refine Or.inr ⟨.exception "not enough message in buffer", 0, hb.read_le, fun m _ => ?_⟩
    rw [skip_zero]
    exact readBytesInReverseOrder_throws (Shares.valid hb) data hs hshort
  · have hreadable := readable_slice hin
    refine Or.inl ⟨_, _, ⟨Memory.slice_length _ _ _, rfl⟩, hreadable, fun m hm => ?_⟩
    exact readBytesInReverseOrder_reads (Shares.valid hb) (Shares.readable hb hm hreadable) data
      (Memory.slice_length _ _ _).symm

end Buffer

namespace Packer
variable (host : Endianness) (packer : Packer) (alloc : UInt64 → Bool)

theorem deserializeObject_decodes :
    Buffer.Decodes packer.deserializeObject fun object bs =>
      bs.length = 8 ∧ object = packer.arrange bs := by
  have hs : (8 : UInt64).toNat < 2 ^ 63 := by decide
  have hback : ∀ xs : List UInt8, xs.length = 8 →
      Memory.slice (Memory.store (bytesAt []) 0 xs) 0 8 = xs := by
    intro xs hxs
    rw [← hxs]
    exact Memory.slice_store_same _ _ _
  have hplain := (Buffer.readBytes_decodes (bytesAt []) hs).map fun object =>
    Memory.slice object 0 8
  have hreverse := (Buffer.readBytesInReverseOrder_decodes (bytesAt []) hs).map fun object =>
    Memory.slice object 0 8
  unfold deserializeObject arrange
  split
  · refine hplain.mono ?_
    rintro object bs ⟨data, rfl, hlength, rfl⟩
    exact ⟨hlength, hback bs hlength⟩
  · refine hplain.mono ?_
    rintro object bs ⟨data, rfl, hlength, rfl⟩
    exact ⟨hlength, hback bs hlength⟩
  · refine hreverse.mono ?_
    rintro object bs ⟨data, rfl, hlength, rfl⟩
    exact ⟨hlength, hback bs.reverse (by rw [List.length_reverse]; exact hlength)⟩

/-- Eight bytes are the packed form of the word that is read from them. -/
theorem scalarBytes_ofObjectBytes {bs : List UInt8} (h : bs.length = 8) :
    scalarBytes host packer
      (UInt64.ofNat (ofObjectBytes host (packer.arrange bs))).toNat = bs := by
  have hlength : (packer.arrange bs).length = 8 := by rw [arrange_length, h]
  have hlt : ofObjectBytes host (packer.arrange bs) < 256 ^ 8 :=
    hlength ▸ ofObjectBytes_lt host (packer.arrange bs)
  rw [UInt64.toNat_ofNat_of_lt' hlt, scalarBytes, objectBytes_ofObjectBytes host hlength,
    arrange_arrange]

theorem deserializeUInt64_decodes :
    Buffer.Decodes (deserializeUInt64 host packer) fun object bs =>
      bs = scalarBytes host packer object.toNat := by
  refine ((deserializeObject_decodes packer).map fun object =>
    UInt64.ofNat (ofObjectBytes host object)).mono ?_
  rintro object bs ⟨bytes, rfl, hlength, rfl⟩
  exact (scalarBytes_ofObjectBytes host packer hlength).symm

theorem deserializeInt64_decodes :
    Buffer.Decodes (deserializeInt64 host packer) fun object bs =>
      bs = scalarBytes host packer object.toUInt64.toNat := by
  refine ((deserializeObject_decodes packer).map fun object =>
    (UInt64.ofNat (ofObjectBytes host object)).toInt64).mono ?_
  rintro object bs ⟨bytes, rfl, hlength, rfl⟩
  exact (scalarBytes_ofObjectBytes host packer hlength).symm

/-- `resize` refuses every size at which the bounds check of a read could wrap. -/
theorem resize_decodes (size : UInt64) :
    Buffer.Decodes (StdString.resize alloc size) fun n bs => n.1 = size ∧ bs = [] := by
  unfold StdString.resize
  split
  · split
    · refine (Buffer.decodes_pure _).mono ?_
      rintro n bs ⟨rfl, rfl⟩
      exact ⟨rfl, rfl⟩
    · exact Buffer.decodes_throw _
  · exact Buffer.decodes_throw _

theorem deserializeString_decodes :
    Buffer.Decodes (deserializeString host packer alloc) fun object bs =>
      bs = fieldBytes host packer (.string object) := by
  have hbytes : ∀ n : {n : UInt64 // n.toNat < 2 ^ 63}, Buffer.Decodes
      (do
        let data ← deserializeBytesView (bytesAt []) n.1
        return (⟨Memory.slice data 0 n.1.toNat, by rw [Memory.slice_length]; exact n.2⟩ :
          StdString))
      fun object bs => bs = object.bytes ∧ bs.length = n.1.toNat := by
    intro n
    refine ((Buffer.readBytes_decodes (bytesAt []) n.2).map fun data =>
      (⟨Memory.slice data 0 n.1.toNat, by rw [Memory.slice_length]; exact n.2⟩ :
        StdString)).mono ?_
    rintro object bs ⟨data, rfl, hlength, rfl⟩
    refine ⟨?_, hlength⟩
    change bs = Memory.slice (Memory.store (bytesAt []) 0 bs) 0 n.1.toNat
    rw [← hlength]
    exact (Memory.slice_store_same _ _ _).symm
  refine ((deserializeUInt64_decodes host packer).bind fun size =>
    (resize_decodes alloc size).bind hbytes).mono ?_
  rintro object bs ⟨size, xs, ys, rfl, ⟨n, none, zs, ⟨rfl, rfl⟩, ⟨hzs, hlength⟩, rfl⟩, rfl⟩
  rw [fieldBytes, ← hzs, hlength]

/-- A prefix that no string can have as its length is refused right after it was read. -/
theorem deserializeString_rejects {size : UInt64} (hs : 2 ^ 63 ≤ size.toNat) {b : Buffer}
    (hb : b.Valid) (hbs : b.Readable (scalarBytes host packer size.toNat)) :
    (deserializeString host packer alloc).run b =
      .error (.exception "std::length_error") (b.skip 8) := by
  have hresize : (StdString.resize alloc size :
      Action Buffer {n : UInt64 // n.toNat < 2 ^ 63}) =
        throw (.exception "std::length_error") := by
    unfold StdString.resize
    rw [dif_neg (Nat.not_lt.mpr hs)]
  have hread := deserializeUInt64_reads host packer size b hb hbs
  rw [scalarBytes_length] at hread
  unfold deserializeString
  rw [run_bind_ok hread, hresize, run_throw_bind]

theorem deserialize_decodes (type : FieldType) :
    Buffer.Decodes (deserialize host packer alloc type) fun field bs =>
      field.type = type ∧ bs = fieldBytes host packer field := by
  cases type with
  | int64 =>
    refine ((deserializeInt64_decodes host packer).map Field.int64).mono ?_
    rintro field bs ⟨object, rfl, rfl⟩
    exact ⟨rfl, rfl⟩
  | uint64 =>
    refine ((deserializeUInt64_decodes host packer).map Field.uint64).mono ?_
    rintro field bs ⟨object, rfl, rfl⟩
    exact ⟨rfl, rfl⟩
  | double =>
    refine ((deserializeUInt64_decodes host packer).map Field.double).mono ?_
    rintro field bs ⟨bits, rfl, rfl⟩
    exact ⟨rfl, rfl⟩
  | timePoint =>
    refine ((deserializeInt64_decodes host packer).map Field.timePoint).mono ?_
    rintro field bs ⟨count, rfl, rfl⟩
    exact ⟨rfl, rfl⟩
  | string =>
    refine ((deserializeString_decodes host packer alloc).map Field.string).mono ?_
    rintro field bs ⟨object, rfl, rfl⟩
    exact ⟨rfl, rfl⟩

theorem unpack_decodes (types : List FieldType) :
    Buffer.Decodes (unpack host packer alloc types) fun fields bs =>
      fields.map Field.type = types ∧ bs = objectEncoding host packer fields := by
  induction types with
  | nil =>
    refine (Buffer.decodes_pure []).mono ?_
    rintro fields bs ⟨rfl, rfl⟩
    exact ⟨rfl, rfl⟩
  | cons type types ih =>
    refine ((deserialize_decodes host packer alloc type).bind fun field =>
      ih.map (field :: ·)).mono ?_
    rintro fields bs ⟨field, xs, ys, ⟨htype, rfl⟩, ⟨rest, rfl, htypes, rfl⟩, rfl⟩
    refine ⟨?_, rfl⟩
    rw [List.map_cons, htype, htypes]

/-- Whatever the buffer holds, `Unpack` throws or returns an object, reads only inside the
buffer and keeps its position there; a returned object packs into the bytes it came from. -/
theorem decoding_safe_and_canonical (types : List FieldType) {b : Buffer} (hb : b.Valid) :
    ∃ n, b.bufReadPtr.toNat + n ≤ b.bufEnd.toNat ∧ (b.skip n).Valid ∧
      ((∃ e, ∀ m, b.Shares m → (unpack host packer alloc types).run { b with memory := m } =
          .error e ({ b with memory := m }.skip n)) ∨
        ∃ object : List Field, object.map Field.type = types ∧
          (∀ m, b.Shares m → (unpack host packer alloc types).run { b with memory := m } =
            .ok object ({ b with memory := m }.skip n)) ∧
          ∀ empty : Buffer, empty.Valid → ∃ packed,
            (pack host packer object).run empty.reset = .ok () packed ∧
            packed.usedBytes.toNat = n ∧
            packed.contents = Memory.slice b.memory b.bufReadPtr.toNat n) := by
  rcases unpack_decodes host packer alloc types b hb with
    ⟨object, bs, ⟨htypes, rfl⟩, hreadable, hrun⟩ | ⟨e, n, hin, hrun⟩
  · refine ⟨_, hreadable.inside, Buffer.skip_valid hb hreadable.inside,
      Or.inr ⟨object, htypes, hrun, fun empty hempty => ?_⟩⟩
    have hfit : (objectEncoding host packer object).length ≤ empty.reset.room := by
      rw [Buffer.reset_room hempty]
      exact hreadable.length_le hb
    have hcontents := Buffer.contents_append hempty.reset rfl hfit
    refine ⟨_, (pack_writes host packer object _ hempty.reset).1 hfit, ?_, ?_⟩
    · have hlength := congrArg List.length hcontents
      rwa [Buffer.contents, Memory.slice_length] at hlength
    · rw [hcontents, hreadable.bytes]
  · exact ⟨n, hin, Buffer.skip_valid hb hin, Or.inl ⟨e, hrun⟩⟩

/-- A length prefix of all ones: the string is refused, and only the prefix was read. -/
theorem decoding_safe_and_canonical_sample :
    let b := Buffer.new (fun _ => 0xff) 4096
    (∃ n, b.bufReadPtr.toNat + n ≤ b.bufEnd.toNat ∧ (b.skip n).Valid) ∧
    (deserializeString .kLittle .localPacker (fun _ => true)).run b =
      .error (.exception "std::length_error") (b.skip 8) := by
  intro b
  have hvalid : b.Valid := Buffer.valid_new_page _
  obtain ⟨n, hin, hskip, _⟩ :=
    decoding_safe_and_canonical .kLittle .localPacker (fun _ => true) [.string] hvalid
  have hsize : 2 ^ 63 ≤ (0xffffffffffffffff : UInt64).toNat := by decide
  exact ⟨⟨n, hin, hskip⟩, deserializeString_rejects .kLittle .localPacker _ hsize hvalid
    ⟨by decide, by decide⟩⟩

end Packer
end IpcChecker
