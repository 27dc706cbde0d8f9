import IpcChecker.Packers

/-!
# Connections between buffers

How a connector takes a message out of a buffer and puts one into it, and which
packer the executables select for a connection type.
-/

namespace IpcChecker
open Shared
set_option autoImplicit false

inductive ConnectionType where
  | kNetSocket
  | kPipe
  | kSharedMemory
  | kUnixSocket
  deriving Repr, DecidableEq

/-- `CreateDependencyFromParams` for the packer parameters of every executable. -/
def createPacker (host : Endianness) : ConnectionType → Packer
  | .kNetSocket =>
    match EndiannessChecker.value host with
    | .kLittle => .networkPacker .kLittle
    | .kBig => .networkPacker .kBig
  | .kPipe => .localPacker
  | .kSharedMemory => .localPacker
  | .kUnixSocket => .localPacker

theorem createPacker_netSocket (host : Endianness) :
    createPacker host .kNetSocket = .networkPacker host := by
  unfold createPacker
  rw [EndiannessChecker.value_eq]
  cases host <;> rfl

theorem createPacker_local (host : Endianness) {type : ConnectionType} (h : type ≠ .kNetSocket) :
    createPacker host type = .localPacker := by
  cases type with
  | kNetSocket => exact absurd rfl h
  | kPipe => rfl
  | kSharedMemory => rfl
  | kUnixSocket => rfl

/-- The byte order on the wire under the packer selected for a connection type. -/
def wireOrder (host : Endianness) (type : ConnectionType) : Endianness :=
  if type = .kNetSocket then .kBig else host

theorem objectBytes_reverse (w n : Nat) :
    (objectBytes .kLittle w n).reverse = objectBytes .kBig w n := rfl

theorem scalarBytes_createPacker (host : Endianness) (type : ConnectionType) (n : Nat) :
    Packer.scalarBytes host (createPacker host type) n = objectBytes (wireOrder host type) 8 n := by
  by_cases htype : type = .kNetSocket
  · rw [htype, createPacker_netSocket, wireOrder, if_pos rfl]
    cases host with
    | kBig => rfl
    | kLittle => exact objectBytes_reverse 8 n
  · rw [createPacker_local host htype, wireOrder, if_neg htype]
    rfl

theorem ofObjectBytes_createPacker (host : Endianness) (type : ConnectionType) (bs : List UInt8) :
    ofObjectBytes host ((createPacker host type).arrange bs) =
      ofObjectBytes (wireOrder host type) bs := by
  by_cases htype : type = .kNetSocket
  · rw [htype, createPacker_netSocket, wireOrder, if_pos rfl]
    cases host with
    | kBig => rfl
    | kLittle => rfl
  · rw [createPacker_local host htype, wireOrder, if_neg htype]
    rfl

/-- The two ends of a socket agree on the byte order, as those of a local connection do. -/
theorem wireOrder_ends {peer host : Endianness} {type : ConnectionType}
    (hends : type = .kNetSocket ∨ peer = host) : wireOrder peer type = wireOrder host type := by
  rcases hends with rfl | rfl
  · rfl
  · rfl

theorem fieldBytes_ends {peer host : Endianness} {type : ConnectionType}
    (hends : type = .kNetSocket ∨ peer = host) (field : Field) :
    Packer.fieldBytes peer (createPacker peer type) field =
      Packer.fieldBytes host (createPacker host type) field := by
  cases field <;> simp only [Packer.fieldBytes, scalarBytes_createPacker, wireOrder_ends hends]

namespace Buffer

/-- The bytes from `Data()` on. -/
def data (b : Buffer) : Memory UInt8 := fun i => b.memory (b.buf.toNat + i)

/-- The buffer after something was written through `Data()`. -/
def withData (b : Buffer) (data : Memory UInt8) : Buffer :=
  { b with memory := fun a => if b.buf.toNat ≤ a then data (a - b.buf.toNat) else b.memory a }

/-- The message a client sends: `UsedBytes()` bytes from `Data()` on. -/
def contents (b : Buffer) : List UInt8 := Memory.slice b.data 0 b.usedBytes.toNat

/-- The buffer after a message arrived at `Data()`; the pointers stay. -/
def fill (b : Buffer) (message : List UInt8) : Buffer :=
  { b with memory := Memory.store b.memory b.buf.toNat message }

theorem slice_data (b : Buffer) (n : Nat) :
    Memory.slice b.data 0 n = Memory.slice b.memory b.buf.toNat n :=
  Memory.slice_congr fun i _ => by rw [data, Nat.zero_add]

theorem withData_store (b : Buffer) (message : List UInt8) :
    b.withData (Memory.store b.data 0 message) = b.fill message := by
  have hmemory : (fun a => if b.buf.toNat ≤ a then
        Memory.store b.data 0 message (a - b.buf.toNat) else b.memory a) =
      Memory.store b.memory b.buf.toNat message := by
    funext a
    split
    · rename_i hle
      obtain ⟨i, rfl⟩ := Nat.exists_eq_add_of_le hle
      simp [Memory.store, data]
    · rw [Memory.store_outside _ _ _ (by omega)]
  unfold withData fill
  rw [hmemory]

section Messages
variable {b : Buffer} (h : b.Valid)
include h

theorem reset_room : b.reset.room = 10000 := by
  have hend : b.bufEnd.toNat = b.buf.toNat + 10000 := h.end_eq
  change b.bufEnd.toNat - b.buf.toNat = 10000
  omega

theorem fill_valid (message : List UInt8) : (b.fill message).Valid := { h with }

theorem contents_append (hstart : b.bufWritePtr = b.buf) {bs : List UInt8}
    (hfit : bs.length ≤ b.room) : (b.append bs).contents = bs := by
  have hptr := append_ptr h hfit
  rw [hstart] at hptr
  have hused : (b.append bs).usedBytes.toNat = bs.length := by
    have hle : (b.append bs).buf ≤ (b.append bs).bufWritePtr := by
      rw [UInt64.le_iff_toNat_le, hptr]
      exact Nat.le_add_right _ _
    unfold usedBytes
    rw [UInt64.toNat_sub_of_le _ _ hle, hptr]
    exact Nat.add_sub_cancel_left _ _
  unfold contents
  rw [hused, slice_data]
  change Memory.slice (Memory.store b.memory b.bufWritePtr.toNat bs) b.buf.toNat _ = bs
  rw [hstart]
  exact Memory.slice_store_same b.memory b.buf.toNat bs

theorem readable_fill (hread : b.bufReadPtr = b.buf) {message : List UInt8}
    (hfit : message.length ≤ 10000) : (b.fill message).Readable message := by
  have hend : b.bufEnd.toNat = b.buf.toNat + 10000 := h.end_eq
  constructor
  · change Memory.slice _ b.bufReadPtr.toNat _ = _
    rw [hread]
    exact Memory.slice_store_same _ _ _
  · change b.bufReadPtr.toNat + _ ≤ b.bufEnd.toNat
    rw [hread]
    omega

end Messages
end Buffer

/-- The packed form of a string on a local connection. -/
def packedBytes (host : Endianness) (message : StdString) : List UInt8 :=
  Packer.fieldBytes host .localPacker (.string message)

theorem packedBytes_length (host : Endianness) (message : StdString) :
    (packedBytes host message).length = 8 + message.bytes.length :=
  Packer.fieldBytes_length host .localPacker (.string message)

/-- What `read` on a connection returns; no bytes at all mean the end of the stream. -/
inductive ReadResult where
  | failed
  | bytes (message : List UInt8)
  deriving DecidableEq

/-- `Receive` of the socket and pipe servers, which have one body. -/
def receive (result : ReadResult) : Action Buffer Unit :=
  match result with
  | .failed => throw (.exception "read() failed")
  | .bytes message => modify fun b => b.fill message

/-- One round of a receiving loop: Reset, Receive, Unpack. -/
def receiveRound {α : Type} (unpack : Action Buffer α) (result : ReadResult) : Action Buffer α := do
  modify Buffer.reset
  receive result
  unpack

/-- One round of a sending loop: Reset, Pack, and the message handed to Send. -/
def sendRound (pack : Action Buffer Unit) : Action Buffer (List UInt8) := do
  modify Buffer.reset
  pack
  return (← get).contents

theorem receiveRound_bytes {α : Type} (unpack : Action Buffer α) (message : List UInt8)
    (b : Buffer) : (receiveRound unpack (.bytes message)).run b =
      unpack.run (b.reset.fill message) := by
  unfold receiveRound receive
  rw [run_modify_bind, run_modify_bind]

/-- A round that receives a whole message takes the object that was packed into it. -/
theorem receiveRound_reads {α : Type} {unpack : Action Buffer α} {message : List UInt8} {a : α}
    (hread : Buffer.Reads unpack message a) (hfit : message.length ≤ 10000) {b : Buffer}
    (hb : b.Valid) :
    (receiveRound unpack (.bytes message)).run b =
        .ok a ((b.reset.fill message).skip message.length) ∧
      ((b.reset.fill message).skip message.length).Valid := by
  have hreadable := Buffer.readable_fill hb.reset rfl hfit
  have hvalid := Buffer.fill_valid hb.reset message
  rw [receiveRound_bytes]
  exact ⟨hread _ hvalid hreadable, Buffer.skip_valid hvalid hreadable.inside⟩

/-- A round whose message fits sends exactly what was packed. -/
theorem sendRound_writes {pack : Action Buffer Unit} {message : List UInt8}
    (hwrite : Buffer.Writes pack message) (hfit : message.length ≤ 10000) {b : Buffer}
    (hb : b.Valid) :
    ∃ b', (sendRound pack).run b = .ok message b' ∧ b'.Valid := by
  have hroom : message.length ≤ b.reset.room := Buffer.reset_room hb ▸ hfit
  refine ⟨b.reset.append message, ?_, Buffer.append_valid hb.reset hroom⟩
  unfold sendRound
  rw [run_modify_bind, run_bind_ok ((hwrite _ hb.reset).1 hroom), run_get_bind,
    Buffer.contents_append hb.reset rfl hroom]
  rfl

theorem sendRound_ok {pack : Action Buffer Unit} {message sent : List UInt8}
    (hwrite : Buffer.Writes pack message) {b b' : Buffer} (hb : b.Valid)
    (hrun : (sendRound pack).run b = .ok sent b') : sent = message ∧ message.length ≤ 10000 := by
  rcases Nat.lt_or_ge 10000 message.length with hlong | hfit
  · have hroom : b.reset.room < message.length := Buffer.reset_room hb ▸ hlong
    obtain ⟨e, written, herror, _⟩ := (hwrite _ hb.reset).2 hroom
    unfold sendRound at hrun
    rw [run_modify_bind, run_bind_error herror] at hrun
    cases hrun
  · obtain ⟨b₁, hok, _⟩ := sendRound_writes hwrite hfit hb
    rw [hok] at hrun
    cases hrun
    exact ⟨rfl, hfit⟩

end IpcChecker
