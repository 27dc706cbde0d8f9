import IpcChecker.Connection

/-!
# The network format

A host packs for a socket with the `NetworkPacker` of its own byte order. The
bytes this produces do not depend on the host.
-/

namespace IpcChecker
open Shared
set_option autoImplicit false

namespace Field

/-- Scalars and string lengths in eight bytes, most significant first. -/
def networkForm : Field → List UInt8
  | int64 object => ByteOrder.bigEndian 8 object.toUInt64.toNat
  | uint64 object => ByteOrder.bigEndian 8 object.toNat
  | double bits => ByteOrder.bigEndian 8 bits.toNat
  | timePoint timeSinceEpochCount => ByteOrder.bigEndian 8 timeSinceEpochCount.toUInt64.toNat
  | string object => ByteOrder.bigEndian 8 object.bytes.length ++ object.bytes

end Field

namespace Packer

theorem scalarBytes_netSocket (host : Endianness) (n : Nat) :
    scalarBytes host (createPacker host .kNetSocket) n = ByteOrder.bigEndian 8 n :=
  scalarBytes_createPacker host .kNetSocket n

theorem fieldBytes_netSocket (host : Endianness) (field : Field) :
    fieldBytes host (createPacker host .kNetSocket) field = field.networkForm := by
  cases field <;> simp only [fieldBytes, Field.networkForm, scalarBytes_netSocket]

theorem objectEncoding_netSocket (host : Endianness) (object : List Field) :
    objectEncoding host (createPacker host .kNetSocket) object =
      object.flatMap Field.networkForm := by
  unfold objectEncoding
  congr 1
  funext field
  exact fieldBytes_netSocket host field

theorem pack_netSocket_writes (host : Endianness) (object : List Field) :
    Buffer.Writes (pack host (createPacker host .kNetSocket) object)
      (object.flatMap Field.networkForm) := by
  rw [← objectEncoding_netSocket host]
  exact pack_writes host _ object

theorem unpack_netSocket_reads (host : Endianness) (alloc : UInt64 → Bool) (object : List Field)
    (halloc : ∀ s, Field.string s ∈ object → alloc s.size = true) :
    Buffer.Reads (unpack host (createPacker host .kNetSocket) alloc (object.map Field.type))
      (object.flatMap Field.networkForm) object := by
  rw [← objectEncoding_netSocket host]
  exact unpack_reads host _ alloc object halloc

/-- Two hosts pack an object into the same bytes, and each unpacks what the other packed. -/
theorem network_format_host_independent (host host' : Endianness) (alloc : UInt64 → Bool)
    (object : List Field) {b : Buffer} (hb : b.Valid) :
    let packer := createPacker host .kNetSocket
    let packer' := createPacker host' .kNetSocket
    (∀ packed, (pack host packer object).run b = .ok () packed ↔
      (pack host' packer' object).run b = .ok () packed) ∧
    ∀ packed, (pack host packer object).run b = .ok () packed →
      let n := packed.bufWritePtr.toNat - b.bufWritePtr.toNat
      Memory.slice packed.memory b.bufWritePtr.toNat n = object.flatMap Field.networkForm ∧
      ((∀ s, Field.string s ∈ object → alloc s.size = true) →
        ∀ received : Buffer, received.Valid →
          received.Readable (Memory.slice packed.memory b.bufWritePtr.toNat n) →
          (unpack host' packer' alloc (object.map Field.type)).run received =
            .ok object (received.skip n)) := by
  intro packer packer'
  have hwrites := (pack_netSocket_writes host object).ok_iff hb
  refine ⟨fun packed => ?_, fun packed hrun => ?_⟩
  · rw [hwrites packed, (pack_netSocket_writes host' object).ok_iff hb packed]
  · obtain ⟨hfit, rfl⟩ := (hwrites packed).mp hrun
    have hptr := Buffer.append_ptr hb hfit
    have hlength : (b.append (object.flatMap Field.networkForm)).bufWritePtr.toNat -
        b.bufWritePtr.toNat = (object.flatMap Field.networkForm).length := by omega
    have hbytes : Memory.slice (b.append (object.flatMap Field.networkForm)).memory
        b.bufWritePtr.toNat (object.flatMap Field.networkForm).length =
          object.flatMap Field.networkForm := Memory.slice_store_same _ _ _
    simp only [hlength]
    refine ⟨hbytes, fun halloc received hvalid hreadable => ?_⟩
    rw [hbytes] at hreadable
    exact unpack_netSocket_reads host' alloc object halloc received hvalid hreadable

/-- A big-endian host packs, a little-endian one unpacks. -/
theorem network_format_host_independent_sample :
    ∃ packed, (pack .kBig (createPacker .kBig .kNetSocket) sampleObject).run
        (Buffer.new (bytesAt []) 4096) = .ok () packed ∧
      (unpack .kLittle (createPacker .kLittle .kNetSocket) (fun _ => true)
        (sampleObject.map Field.type)).run packed = .ok sampleObject (packed.skip 37) := by
  have hvalid : (Buffer.new (bytesAt []) 4096).Valid := Buffer.valid_new_page _
  have hfit : (sampleObject.flatMap Field.networkForm).length ≤
      (Buffer.new (bytesAt []) 4096).room := by decide
  have hrun := ((pack_netSocket_writes .kBig sampleObject) _ hvalid).1 hfit
  have hptr : ((Buffer.new (bytesAt []) 4096).append
      (sampleObject.flatMap Field.networkForm)).bufWritePtr.toNat - 4096 = 37 := by
    rw [Buffer.append_ptr hvalid hfit]
    decide
  obtain ⟨hbytes, hread⟩ := (network_format_host_independent .kBig .kLittle (fun _ => true)
    sampleObject hvalid).2 _ hrun
  refine ⟨_, hrun, ?_⟩
  have hreadable := Buffer.readable_append hvalid rfl hfit
  rw [← hbytes] at hreadable
  have hresult := hread (fun _ _ => rfl) _ (Buffer.append_valid hvalid hfit) hreadable
  rwa [show (Buffer.new (bytesAt []) 4096).bufWritePtr.toNat = 4096 from rfl, hptr] at hresult

end Packer
end IpcChecker
