import IpcChecker.Buffer

/-!
# Packers

`LocalPacker` and `NetworkPacker` over a buffer, for objects that are sequences of
fields. Packing appends an encoding of the fields and unpacking the same shape
takes exactly that encoding back.
-/

namespace IpcChecker
open Shared
set_option autoImplicit false

/-- `NetworkPacker` is a template on the byte order it takes the host to have. -/
inductive Packer where
  | localPacker
  | networkPacker (hostEndian : Endianness)
  deriving Repr, DecidableEq

/-- A `std::string`: its length is at most the library's `max_size`. -/
@[ext] structure StdString where
  bytes : List UInt8
  length_lt : bytes.length < 2 ^ 63
  deriving DecidableEq

namespace StdString

def size (s : StdString) : UInt64 := UInt64.ofNat s.bytes.length

theorem size_toNat (s : StdString) : s.size.toNat = s.bytes.length := by
  have h := s.length_lt
  exact UInt64.toNat_ofNat_of_lt' (by change _ < 2 ^ 64; omega)

/-- `resize`, which throws for impossible sizes and when the allocation fails. -/
def resize {σ : Type} (alloc : UInt64 → Bool) (size : UInt64) :
    Action σ {n : UInt64 // n.toNat < 2 ^ 63} :=
  if h : size.toNat < 2 ^ 63 then
    if alloc size then pure ⟨size, h⟩ else throw (.exception "std::bad_alloc")
  else throw (.exception "std::length_error")

end StdString

/-- One field of a packable object; a `double` is given by its 64-bit pattern. -/
inductive Field where
  | int64 (object : Int64)
  | uint64 (object : UInt64)
  | double (bits : UInt64)
  | timePoint (timeSinceEpochCount : Int64)
  | string (object : StdString)
  deriving DecidableEq

inductive FieldType where
  | int64
  | uint64
  | double
  | timePoint
  | string
  deriving Repr, DecidableEq

namespace Field

def type : Field → FieldType
  | int64 _ => .int64
  | uint64 _ => .uint64
  | double _ => .double
  | timePoint _ => .timePoint
  | string _ => .string

def encodedSize : Field → Nat
  | string object => 8 + object.bytes.length
  | _ => 8

end Field

namespace Packer
variable (host : Endianness) (packer : Packer)

/-! Packing. The three scalar overloads of `SerializeImpl` have one body. -/

def serializeObject (object : List UInt8) : Action Buffer Unit :=
  match packer with
  | .localPacker => Buffer.writeBytes (bytesAt object) 8
  | .networkPacker .kBig => Buffer.writeBytes (bytesAt object) 8
  | .networkPacker .kLittle => Buffer.writeBytesInReverseOrder (bytesAt object) 8

def serializeInt64 (object : Int64) : Action Buffer Unit :=
  packer.serializeObject (objectBytes host 8 object.toUInt64.toNat)

def serializeUInt64 (object : UInt64) : Action Buffer Unit :=
  packer.serializeObject (objectBytes host 8 object.toNat)

def serializeDouble (bits : UInt64) : Action Buffer Unit :=
  packer.serializeObject (objectBytes host 8 bits.toNat)

def serializeBytesView (pointer : Memory UInt8) (size : UInt64) : Action Buffer Unit :=
  Buffer.writeBytes pointer size

def serializeTimePoint (timeSinceEpochCount : Int64) : Action Buffer Unit :=
  serializeInt64 host packer timeSinceEpochCount

def serializeString (object : StdString) : Action Buffer Unit := do
  serializeUInt64 host packer object.size
  serializeBytesView (bytesAt object.bytes) object.size

def serialize : Field → Action Buffer Unit
  | .int64 object => serializeInt64 host packer object
  | .uint64 object => serializeUInt64 host packer object
  | .double bits => serializeDouble host packer bits
  | .timePoint timeSinceEpochCount => serializeTimePoint host packer timeSinceEpochCount
  | .string object => serializeString host packer object

/-- `Pack` of an object with the given fields. -/
def pack : List Field → Action Buffer Unit
  | [] => pure ()
  | field :: fields => do
    serialize host packer field
    pack fields

/-! Unpacking. -/

def deserializeObject : Action Buffer (List UInt8) := do
  let object ← match packer with
    | .localPacker => Buffer.readBytes (bytesAt []) 8
    | .networkPacker .kBig => Buffer.readBytes (bytesAt []) 8
    | .networkPacker .kLittle => Buffer.readBytesInReverseOrder (bytesAt []) 8
  return Memory.slice object 0 8

def deserializeUInt64 : Action Buffer UInt64 := do
  return UInt64.ofNat (ofObjectBytes host (← packer.deserializeObject))

def deserializeInt64 : Action Buffer Int64 := do
  return (UInt64.ofNat (ofObjectBytes host (← packer.deserializeObject))).toInt64

def deserializeDouble : Action Buffer UInt64 := do
  return UInt64.ofNat (ofObjectBytes host (← packer.deserializeObject))

def deserializeBytesView (pointer : Memory UInt8) (size : UInt64) :
    Action Buffer (Memory UInt8) :=
  Buffer.readBytes pointer size

def deserializeTimePoint : Action Buffer Int64 := deserializeInt64 host packer

variable (alloc : UInt64 → Bool)

def deserializeString : Action Buffer StdString := do
  let size ← deserializeUInt64 host packer
  let size ← StdString.resize alloc size
  let data ← deserializeBytesView (bytesAt []) size.1
  return ⟨Memory.slice data 0 size.1.toNat, by rw [Memory.slice_length]; exact size.2⟩

def deserialize : FieldType → Action Buffer Field
  | .int64 => return .int64 (← deserializeInt64 host packer)
  | .uint64 => return .uint64 (← deserializeUInt64 host packer)
  | .double => return .double (← deserializeDouble host packer)
  | .timePoint => return .timePoint (← deserializeTimePoint host packer)
  | .string => return .string (← deserializeString host packer alloc)

/-- `Unpack` of an object with the given field types. -/
def unpack : List FieldType → Action Buffer (List Field)
  | [] => return []
  | type :: types => do
    let field ← deserialize host packer alloc type
    return field :: (← unpack types)

/-! The encoding that packing appends. -/

/-- How a packer lays out the bytes of a scalar, and how it puts them back. -/
def arrange (object : List UInt8) : List UInt8 :=
  match packer with
  | .localPacker => object
  | .networkPacker .kBig => object
  | .networkPacker .kLittle => object.reverse

/-- The packed form of a 64-bit scalar. -/
def scalarBytes (n : Nat) : List UInt8 := packer.arrange (objectBytes host 8 n)

def fieldBytes : Field → List UInt8
  | .int64 object => scalarBytes host packer object.toUInt64.toNat
  | .uint64 object => scalarBytes host packer object.toNat
  | .double bits => scalarBytes host packer bits.toNat
  | .timePoint timeSinceEpochCount => scalarBytes host packer timeSinceEpochCount.toUInt64.toNat
  | .string object => scalarBytes host packer object.bytes.length ++ object.bytes

def objectEncoding (fields : List Field) : List UInt8 := fields.flatMap (fieldBytes host packer)

@[simp] theorem arrange_length (object : List UInt8) :
    (packer.arrange object).length = object.length := by
  unfold arrange
  split <;> simp

@[simp] theorem arrange_arrange (object : List UInt8) :
    packer.arrange (packer.arrange object) = object := by
  unfold arrange
  split <;> simp

@[simp] theorem scalarBytes_length (n : Nat) : (scalarBytes host packer n).length = 8 := by
  simp [scalarBytes]

@[simp] theorem fieldBytes_length (field : Field) :
    (fieldBytes host packer field).length = field.encodedSize := by
  cases field <;> simp [fieldBytes, Field.encodedSize]

theorem objectEncoding_length (fields : List Field) :
    (objectEncoding host packer fields).length = (fields.map Field.encodedSize).sum := by
  simp [objectEncoding, List.length_flatMap]

theorem slice_bytesAt (bs : List UInt8) : Memory.slice (bytesAt bs) 0 bs.length = bs :=
  Memory.slice_ofList _ _

theorem serializeObject_writes {object : List UInt8} (h : object.length = 8) :
    Buffer.Writes (packer.serializeObject object) (packer.arrange object) := by
  have hslice : Memory.slice (bytesAt object) 0 (8 : UInt64).toNat = object := by
    have hall := slice_bytesAt object
    rwa [h] at hall
  have hs : (8 : UInt64).toNat < 2 ^ 63 := by decide
  intro b hb
  rw [arrange_length, h]
  constructor
  · intro hfit
    unfold serializeObject arrange
    split
    · rw [Buffer.writeBytes_fits hb _ hs hfit, hslice]
    · rw [Buffer.writeBytes_fits hb _ hs hfit, hslice]
    · rw [Buffer.writeBytesInReverseOrder_fits hb _ hs hfit, hslice]
  · intro hfull
    refine ⟨.exception "message is not fit in buffer", [], ?_, Nat.zero_le _⟩
    rw [Buffer.append_nil]
    unfold serializeObject
    split
    · exact Buffer.writeBytes_throws hb _ hs hfull
    · exact Buffer.writeBytes_throws hb _ hs hfull
    · exact Buffer.writeBytesInReverseOrder_throws hb _ hs hfull

theorem serializeScalar_writes (n : Nat) :
    Buffer.Writes (packer.serializeObject (objectBytes host 8 n)) (scalarBytes host packer n) :=
  serializeObject_writes packer (objectBytes_length host 8 n)

theorem serializeBytesView_writes (object : StdString) :
    Buffer.Writes (serializeBytesView (bytesAt object.bytes) object.size) object.bytes := by
  have hsize := object.size_toNat
  have hs : object.size.toNat < 2 ^ 63 := hsize ▸ object.length_lt
  intro b hb
  constructor
  · intro hfit
    have hrun := Buffer.writeBytes_fits hb (bytesAt object.bytes) hs (hsize ▸ hfit)
    rwa [hsize, slice_bytesAt] at hrun
  · intro hfull
    refine ⟨.exception "message is not fit in buffer", [], ?_, Nat.zero_le _⟩
    rw [Buffer.append_nil]
    exact Buffer.writeBytes_throws hb _ hs (hsize ▸ hfull)

theorem serialize_writes (field : Field) :
    Buffer.Writes (serialize host packer field) (fieldBytes host packer field) := by
  cases field with
  | int64 object => exact serializeScalar_writes host packer _
  | uint64 object => exact serializeScalar_writes host packer _
  | double bits => exact serializeScalar_writes host packer _
  | timePoint timeSinceEpochCount => exact serializeScalar_writes host packer _
  | string object =>
    have hsize : Buffer.Writes (serializeUInt64 host packer object.size)
        (scalarBytes host packer object.bytes.length) := by
      rw [← object.size_toNat]
      exact serializeScalar_writes host packer _
    exact hsize.bind (serializeBytesView_writes object)

theorem pack_writes (fields : List Field) :
    Buffer.Writes (pack host packer fields) (objectEncoding host packer fields) := by
  induction fields with
  | nil => exact Buffer.writes_pure
  | cons field fields ih => exact (serialize_writes host packer field).bind ih

theorem deserializeObject_reads {bs : List UInt8} (h : bs.length = 8) :
    Buffer.Reads packer.deserializeObject bs (packer.arrange bs) := by
  intro b hb hbs
  have hsize : (8 : UInt64).toNat = bs.length := by
    rw [h]
    rfl
  have hback : ∀ xs : List UInt8, xs.length = 8 →
      Memory.slice (Memory.store (bytesAt []) 0 xs) 0 8 = xs := by
    intro xs hxs
    rw [← hxs]
    exact Memory.slice_store_same _ _ _
  unfold deserializeObject arrange
  split
  · rw [run_bind_ok (Buffer.readBytes_reads hb hbs _ hsize)]
    exact congrArg (fun xs => EStateM.Result.ok xs (b.skip _)) (hback bs h)
  · rw [run_bind_ok (Buffer.readBytes_reads hb hbs _ hsize)]
    exact congrArg (fun xs => EStateM.Result.ok xs (b.skip _)) (hback bs h)
  · rw [run_bind_ok (Buffer.readBytesInReverseOrder_reads hb hbs _ hsize)]
    exact congrArg (fun xs => EStateM.Result.ok xs (b.skip _)) (hback bs.reverse (by simpa using h))

theorem ofNat_ofObjectBytes (n : UInt64) :
    UInt64.ofNat (ofObjectBytes host (objectBytes host 8 n.toNat)) = n := by
  have hn : n.toNat < 256 ^ 8 := n.toNat_lt
  rw [ofObjectBytes_objectBytes host hn, UInt64.ofNat_toNat]

theorem deserializeUInt64_reads (object : UInt64) :
    Buffer.Reads (deserializeUInt64 host packer) (scalarBytes host packer object.toNat) object := by
  have h := (deserializeObject_reads packer (scalarBytes_length host packer object.toNat)).map
    fun bytes => UInt64.ofNat (ofObjectBytes host bytes)
  rwa [scalarBytes, arrange_arrange, ofNat_ofObjectBytes] at h

theorem deserializeInt64_reads (object : Int64) :
    Buffer.Reads (deserializeInt64 host packer)
      (scalarBytes host packer object.toUInt64.toNat) object := by
  have h := (deserializeObject_reads packer
    (scalarBytes_length host packer object.toUInt64.toNat)).map
    fun bytes => (UInt64.ofNat (ofObjectBytes host bytes)).toInt64
  rwa [scalarBytes, arrange_arrange, ofNat_ofObjectBytes] at h

theorem deserializeString_reads (object : StdString) (halloc : alloc object.size = true) :
    Buffer.Reads (deserializeString host packer alloc) (fieldBytes host packer (.string object))
      object := by
  have hsize := deserializeUInt64_reads host packer object.size
  rw [object.size_toNat] at hsize
  refine hsize.bind ?_
  intro b hb hbs
  have hlt : object.size.toNat < 2 ^ 63 := object.size_toNat ▸ object.length_lt
  have hresize : (StdString.resize alloc object.size :
      Action Buffer {n : UInt64 // n.toNat < 2 ^ 63}) = pure ⟨object.size, hlt⟩ := by
    unfold StdString.resize
    rw [dif_pos hlt, if_pos halloc]
  have hback : Memory.slice (Memory.store (bytesAt []) 0 object.bytes) 0 object.size.toNat =
      object.bytes := by
    rw [object.size_toNat]
    exact Memory.slice_store_same _ _ _
  have hread := Buffer.readBytes_reads hb hbs (bytesAt []) object.size_toNat
  rw [hresize, pure_bind, deserializeBytesView, run_bind_ok hread]
  exact congrArg (fun s => EStateM.Result.ok s (b.skip _)) (StdString.ext hback)

/-- Where the string cannot be allocated, only its size is read. -/
theorem deserializeString_throws (object : StdString) (halloc : alloc object.size = false)
    {b : Buffer} (hb : b.Valid) (hbs : b.Readable (fieldBytes host packer (.string object))) :
    (deserializeString host packer alloc).run b =
      .error (.exception "std::bad_alloc") (b.skip 8) := by
  have hsize := deserializeUInt64_reads host packer object.size
  rw [object.size_toNat] at hsize
  obtain ⟨hfirst, _⟩ := Buffer.Readable.append hb hbs
  have hlt : object.size.toNat < 2 ^ 63 := object.size_toNat ▸ object.length_lt
  have hresize : (StdString.resize alloc object.size :
      Action Buffer {n : UInt64 // n.toNat < 2 ^ 63}) =
        throw (.exception "std::bad_alloc") := by
    unfold StdString.resize
    rw [dif_pos hlt, if_neg (by rw [halloc]; exact Bool.false_ne_true)]
  have hread := hsize b hb hfirst
  rw [scalarBytes_length] at hread
  unfold deserializeString
  rw [run_bind_ok hread, hresize, run_throw_bind]

theorem deserialize_reads (field : Field)
    (halloc : ∀ object, field = .string object → alloc object.size = true) :
    Buffer.Reads (deserialize host packer alloc field.type) (fieldBytes host packer field)
      field := by
  cases field with
  | int64 object => exact (deserializeInt64_reads host packer object).map Field.int64
  | uint64 object => exact (deserializeUInt64_reads host packer object).map Field.uint64
  | double bits => exact (deserializeUInt64_reads host packer bits).map Field.double
  | timePoint count => exact (deserializeInt64_reads host packer count).map Field.timePoint
  | string object =>
    exact (deserializeString_reads host packer alloc object (halloc object rfl)).map Field.string

theorem unpack_reads (fields : List Field)
    (halloc : ∀ object, Field.string object ∈ fields → alloc object.size = true) :
    Buffer.Reads (unpack host packer alloc (fields.map Field.type))
      (objectEncoding host packer fields) fields := by
  induction fields with
  | nil => exact Buffer.reads_pure []
  | cons field fields ih =>
    have hfirst := deserialize_reads host packer alloc field fun object heq =>
      halloc object (by simp [heq])
    have hrest := ih fun object hmem => halloc object (List.mem_cons_of_mem _ hmem)
    exact hfirst.bind (hrest.map (field :: ·))

/-- Packs several objects one after another. -/
def packEach : List (List Field) → Action Buffer Unit
  | [] => pure ()
  | object :: objects => do
    pack host packer object
    packEach objects

def unpackEach : List (List FieldType) → Action Buffer (List (List Field))
  | [] => return []
  | types :: rest => do
    let object ← unpack host packer alloc types
    return object :: (← unpackEach rest)

theorem packEach_writes (objects : List (List Field)) :
    Buffer.Writes (packEach host packer objects)
      (objects.flatMap (objectEncoding host packer)) := by
  induction objects with
  | nil => exact Buffer.writes_pure
  | cons object objects ih => exact (pack_writes host packer object).bind ih

theorem unpackEach_reads (objects : List (List Field))
    (halloc : ∀ fields ∈ objects, ∀ object, Field.string object ∈ fields →
      alloc object.size = true) :
    Buffer.Reads (unpackEach host packer alloc (objects.map fun fields => fields.map Field.type))
      (objects.flatMap (objectEncoding host packer)) objects := by
  induction objects with
  | nil => exact Buffer.reads_pure []
  | cons fields objects ih =>
    have hfirst := unpack_reads host packer alloc fields (halloc fields List.mem_cons_self)
    have hrest := ih fun fields' hmem => halloc fields' (List.mem_cons_of_mem _ hmem)
    exact hfirst.bind (hrest.map (fields :: ·))

/-- Packing succeeds exactly when the object fits, keeps what was there, and is undone
by unpacking the same shape; so are any number of objects packed in a row. -/
theorem unpack_undoes_pack {b : Buffer} (hb : b.Valid) :
    (∀ object : List Field,
      ((∃ b', (pack host packer object).run b = .ok () b') ↔
        b.bufWritePtr.toNat + (object.map Field.encodedSize).sum ≤ b.bufEnd.toNat) ∧
      ∀ b', (pack host packer object).run b = .ok () b' →
        (∀ a < b.bufWritePtr.toNat, b'.memory a = b.memory a) ∧
        b'.bufWritePtr.toNat = b.bufWritePtr.toNat + (object.map Field.encodedSize).sum ∧
        (b.bufReadPtr = b.bufWritePtr →
          (∀ s, Field.string s ∈ object → alloc s.size = true) →
          (unpack host packer alloc (object.map Field.type)).run b' =
            .ok object { b' with bufReadPtr := b'.bufWritePtr })) ∧
    ∀ objects : List (List Field), b.bufReadPtr = b.bufWritePtr →
      (∀ object ∈ objects, ∀ s, Field.string s ∈ object → alloc s.size = true) →
      ∀ b', (packEach host packer objects).run b = .ok () b' →
        (unpackEach host packer alloc (objects.map fun object => object.map Field.type)).run b' =
          .ok objects { b' with bufReadPtr := b'.bufWritePtr } := by
  refine ⟨fun object => ⟨?_, fun b' hrun => ?_⟩, ?_⟩
  · have hiff := (pack_writes host packer object).ok_iff hb
    have hw := hb.write_le
    rw [← objectEncoding_length host packer]
    constructor
    · rintro ⟨b', hrun⟩
      have hfit := ((hiff b').mp hrun).1
      unfold Buffer.room at hfit
      omega
    · intro hle
      exact ⟨_, (hiff _).mpr ⟨by unfold Buffer.room; omega, rfl⟩⟩
  · obtain ⟨hfit, rfl⟩ := ((pack_writes host packer object).ok_iff hb b').mp hrun
    rw [← objectEncoding_length host packer]
    refine ⟨fun a ha => Buffer.append_frame ha, Buffer.append_ptr hb hfit, ?_⟩
    intro hptr halloc
    exact (unpack_reads host packer alloc object halloc).after_write
      (pack_writes host packer object) hb hptr hrun
  · intro objects hptr halloc b' hrun
    exact (unpackEach_reads host packer alloc objects halloc).after_write
      (packEach_writes host packer objects) hb hptr hrun

def sampleObject : List Field :=
  [.int64 123, .double 0x407c8e4cccccccd0, .string ⟨[104, 101, 108, 108, 111], by decide⟩,
    .uint64 654]

theorem unpack_undoes_pack_sample :
    ∃ b', (pack .kLittle (.networkPacker .kLittle) sampleObject).run
        (Buffer.new (bytesAt []) 4096) = .ok () b' ∧
      (unpack .kLittle (.networkPacker .kLittle) (fun _ => true)
        (sampleObject.map Field.type)).run b' =
          .ok sampleObject { b' with bufReadPtr := b'.bufWritePtr } := by
  have hvalid : (Buffer.new (bytesAt []) 4096).Valid := Buffer.valid_new_page _
  have h := (unpack_undoes_pack .kLittle (.networkPacker .kLittle) (fun _ => true) hvalid).1
    sampleObject
  obtain ⟨b', hrun⟩ := h.1.mpr (by decide)
  exact ⟨b', hrun, (h.2 b' hrun).2.2 rfl fun _ _ => rfl⟩

end Packer
end IpcChecker
