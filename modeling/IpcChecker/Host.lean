import IpcChecker.Shared.ByteOrder
import IpcChecker.Shared.Memory

/-!
# Failures and the host's object representation

A failed call either stops at an `assert` or throws, and leaves the state as it
was at that point. `Endianness` and
`EndiannessChecker` are those of the network packer; the same byte order also
lays out every integer the program copies by address.
-/

namespace IpcChecker
open Shared
set_option autoImplicit false

inductive Failure where
  | assertion
  | exception (what : String)
  deriving Repr, DecidableEq

/-- Code that acts on a state `σ`. A failed call keeps what it did before it failed. -/
abbrev Action (σ α : Type) := EStateM Failure σ α

def assert {σ : Type} (p : Prop) [Decidable p] : Action σ Unit :=
  if p then pure () else throw .assertion

@[simp] theorem assert_true {σ : Type} {p : Prop} [Decidable p] (h : p) :
    (assert p : Action σ Unit) = pure () := if_pos h

section Runs
variable {σ α β : Type} {x : Action σ α} {f : α → Action σ β} {s t : σ}

theorem run_bind_ok {a : α} (h : x.run s = .ok a t) : (x >>= f).run s = (f a).run t := by
  rw [EStateM.run_bind, h]

theorem run_bind_error {e : Failure} (h : x.run s = .error e t) :
    (x >>= f).run s = .error e t := by
  rw [EStateM.run_bind, h]

theorem run_get_bind (f : σ → Action σ β) (s : σ) : (get >>= f).run s = (f s).run s :=
  run_bind_ok (EStateM.run_get s)

theorem run_modify_bind (g : σ → σ) (f : PUnit → Action σ β) (s : σ) :
    ((modify g : Action σ PUnit) >>= f).run s = (f ⟨⟩).run (g s) :=
  run_bind_ok (EStateM.run_modify g s)

theorem run_throw (e : Failure) (s : σ) : (throw e : Action σ α).run s = .error e s := by
  rfl

theorem run_throw_bind (e : Failure) (f : α → Action σ β) (s : σ) :
    ((throw e : Action σ α) >>= f).run s = .error e s :=
  run_bind_error (run_throw e s)

end Runs

/-- `max_size()` of a vector of elements of this size. -/
def vectorMaxSize (elementSize : Nat) : Nat := (2 ^ 63 - 1) / elementSize

/-- `reserve` of an empty vector. The memory for the elements is taken to be there. -/
def vectorReserve {σ : Type} (elementSize : Nat) (n : UInt64) : Action σ Unit :=
  if n.toNat ≤ vectorMaxSize elementSize then pure () else throw (.exception "std::length_error")

section Vector
variable {σ : Type} {elementSize : Nat} {n : UInt64}

theorem vectorReserve_fits (h : n.toNat ≤ vectorMaxSize elementSize) :
    (vectorReserve elementSize n : Action σ Unit) = pure () := if_pos h

theorem vectorReserve_throws (h : vectorMaxSize elementSize < n.toNat) :
    (vectorReserve elementSize n : Action σ Unit) = throw (.exception "std::length_error") :=
  if_neg (Nat.not_le.mpr h)

end Vector

inductive Endianness where
  | kBig
  | kLittle
  deriving Repr, DecidableEq

/-- The `w` bytes at the address of an unsigned object of value `n`. -/
def objectBytes : Endianness → Nat → Nat → List UInt8
  | .kBig => ByteOrder.bigEndian
  | .kLittle => ByteOrder.littleEndian

/-- The value of an unsigned object from the bytes at its address. -/
def ofObjectBytes : Endianness → List UInt8 → Nat
  | .kBig => ByteOrder.ofBigEndian
  | .kLittle => ByteOrder.ofLittleEndian

/-- `EndiannessChecker().Value()`: the first byte of the 16-bit word `0x0201`. -/
def EndiannessChecker.value (host : Endianness) : Endianness :=
  if (objectBytes host 2 0x0201).head? = some 0x01 then .kLittle else .kBig

@[simp] theorem EndiannessChecker.value_eq (host : Endianness) :
    EndiannessChecker.value host = host := by
  cases host <;> decide

@[simp] theorem objectBytes_length (host : Endianness) (w n : Nat) :
    (objectBytes host w n).length = w := by
  cases host <;> simp [objectBytes]

theorem ofObjectBytes_objectBytes (host : Endianness) {w n : Nat} (h : n < 256 ^ w) :
    ofObjectBytes host (objectBytes host w n) = n := by
  cases host with
  | kBig => exact ByteOrder.ofBigEndian_bigEndian h
  | kLittle => exact ByteOrder.ofLittleEndian_littleEndian h

theorem ofObjectBytes_lt (host : Endianness) (bs : List UInt8) :
    ofObjectBytes host bs < 256 ^ bs.length := by
  cases host with
  | kBig => simpa [ofObjectBytes, ByteOrder.ofBigEndian] using ByteOrder.ofLittleEndian_lt bs.reverse
  | kLittle => exact ByteOrder.ofLittleEndian_lt bs

theorem objectBytes_ofObjectBytes (host : Endianness) {w : Nat} {bs : List UInt8}
    (h : bs.length = w) : objectBytes host w (ofObjectBytes host bs) = bs := by
  subst h
  cases host with
  | kBig =>
    have hreverse := congrArg List.reverse (ByteOrder.littleEndian_ofLittleEndian bs.reverse)
    rwa [List.length_reverse, List.reverse_reverse] at hreverse
  | kLittle => exact ByteOrder.littleEndian_ofLittleEndian bs

/-- Memory whose first bytes are the given ones; used for objects on the stack. -/
abbrev bytesAt (bs : List UInt8) : Memory UInt8 := Memory.ofList 0 bs

end IpcChecker
