import IpcChecker.RingIndex
import IpcChecker.Shared.Fifo

/-!
# Records in the ring and the state a ring represents

A record is a header and a payload laid from its tape position on, wrapping at
the capacity. `Represents` ties the ring to the list of unread payloads; Push and
Pop are specified against it.
-/

namespace IpcChecker
open Shared
set_option autoImplicit false

/-- Header and payload of a record, without padding. -/
def recordBytes (host : Endianness) (payload : List UInt8) : List UInt8 :=
  objectBytes host 4 payload.length ++ payload

@[simp] theorem recordBytes_length (host : Endianness) (payload : List UInt8) :
    (recordBytes host payload).length = 4 + payload.length := by
  simp [recordBytes]

theorem recordBytes_header (host : Endianness) (payload : List UInt8) {k : Nat} (hk : k < 4) :
    (recordBytes host payload)[k]? = (objectBytes host 4 payload.length)[k]? :=
  List.getElem?_append_left (by simpa using hk)

theorem recordBytes_payload (host : Endianness) (payload : List UInt8) (j : Nat) :
    (recordBytes host payload)[4 + j]? = payload[j]? := by
  rw [recordBytes, List.getElem?_append_right (by simp)]
  simp

/-- The two copies of a record's payload, as both Push and Pop split it. -/
structure PayloadSplit (c p n fit overflow : Nat) : Prop where
  aligned : c % 4 = 0
  position : p % 4 = 0
  fits : 4 + n ≤ c
  fit_eq : fit = min n (c - (p % c + 4))
  overflow_eq : overflow = n - fit

namespace PayloadSplit
variable {c p n fit overflow : Nat} (h : PayloadSplit c p n fit overflow)
include h

theorem offset_le : p % c + 4 ≤ c := by
  have hc := h.fits
  have hlt : p % c < c := Nat.mod_lt p (by omega)
  have hmod : p % c % 4 = 0 := by
    rw [Nat.mod_mod_of_dvd _ (Nat.dvd_of_mod_eq_zero h.aligned)]
    exact h.position
  have ha := h.aligned
  omega

theorem overflow_le : overflow ≤ p % c := by
  have hc := h.fits
  have hf := h.fit_eq
  have ho := h.overflow_eq
  omega

theorem header_slot {k : Nat} (hk : k < 4) : (p + k) % c = p % c + k := by
  have ho := h.offset_le
  exact Circular.slot_add_of_lt (by omega)

theorem fit_slot {j : Nat} (hj : j < fit) : (p + (4 + j)) % c = p % c + 4 + j := by
  have hf := h.fit_eq
  rw [Circular.slot_add_of_lt (by omega), Nat.add_assoc]

theorem overflow_slot {j : Nat} (hj : j < overflow) : (p + (4 + (fit + j))) % c = j := by
  have hc := h.fits
  have hf := h.fit_eq
  have ho := h.overflow_eq
  have hle := h.overflow_le
  have hoff := h.offset_le
  rw [Circular.slot_add_of_ge (by omega) (by omega)]
  omega

end PayloadSplit

/-- Push's header store and its two copies lay the record out from position `p` on. -/
theorem push_stores (host : Endianness) {c p n fit overflow : Nat}
    (h : PayloadSplit c p n fit overflow) (m payload : Memory UInt8) :
    Circular.Stored c p (recordBytes host (Memory.slice payload 0 n)) m
      (Memory.memcpy
        (Memory.memcpy
          (Memory.memcpy m (p % c) (bytesAt (objectBytes host 4 n)) 0 4)
          (p % c + 4) payload 0 fit)
        0 payload fit overflow) := by
  have hover := h.overflow_le
  have hsum := h.overflow_eq
  have hfit := h.fit_eq
  constructor
  · intro k hk
    rw [recordBytes_length, Memory.slice_length] at hk
    apply Option.some_inj.mp
    rw [← List.getElem?_eq_getElem]
    rcases Nat.lt_or_ge k 4 with hhead | hbody
    · rw [recordBytes_header host _ hhead, h.header_slot hhead,
        Memory.memcpy_outside _ _ (by omega), Memory.memcpy_outside _ _ (by omega),
        Memory.memcpy_inside _ _ hhead, Memory.slice_length]
      simp [bytesAt, Memory.ofList, hhead]
    · obtain ⟨j, rfl⟩ := Nat.exists_eq_add_of_le hbody
      rw [recordBytes_payload, List.getElem?_eq_getElem (by simp; omega), Memory.slice_getElem]
      rcases Nat.lt_or_ge j fit with hj | hj
      · rw [h.fit_slot hj, Memory.memcpy_outside _ _ (by omega), Memory.memcpy_inside _ _ hj]
      · obtain ⟨i, rfl⟩ := Nat.exists_eq_add_of_le hj
        have hi : i < overflow := by omega
        have hinside := Memory.memcpy_inside
          (Memory.memcpy (Memory.memcpy m (p % c) (bytesAt (objectBytes host 4 n)) 0 4)
            (p % c + 4) payload 0 fit) payload (d := 0) (s := fit) hi
        rw [Nat.zero_add] at hinside
        rw [h.overflow_slot hi, hinside, Nat.zero_add]
  · intro i hi
    rw [recordBytes_length, Memory.slice_length] at hi
    have h1 : 0 + overflow ≤ i := by
      by_contra hlt
      exact hi (4 + (fit + i)) (by omega) (h.overflow_slot (by omega))
    have h2 : i < p % c + 4 ∨ p % c + 4 + fit ≤ i := by
      by_contra hin
      obtain ⟨j, hj⟩ := Nat.exists_eq_add_of_le (show p % c + 4 ≤ i by omega)
      exact hi (4 + j) (by omega) (by rw [h.fit_slot (by omega), hj])
    have h3 : i < p % c ∨ p % c + 4 ≤ i := by
      by_contra hin
      obtain ⟨k, hk⟩ := Nat.exists_eq_add_of_le (show p % c ≤ i by omega)
      exact hi k (by omega) (by rw [h.header_slot (by omega), hk])
    rw [Memory.memcpy_outside _ _ (Or.inr h1), Memory.memcpy_outside _ _ h2,
      Memory.memcpy_outside _ _ h3]

section Reading
variable (host : Endianness) {c p fit overflow : Nat} {m : Memory UInt8} {payload : List UInt8}
variable (hload : Circular.load c m p (4 + payload.length) = recordBytes host payload)
include hload

theorem load_record_byte {k : Nat} (hk : k < 4 + payload.length) :
    some (m ((p + k) % c)) = (recordBytes host payload)[k]? := by
  have hlen : k < (recordBytes host payload).length := by simpa using hk
  have hall := (Circular.load_eq_iff c m p (recordBytes host payload)).mp (by simpa using hload)
  rw [hall k hlen, List.getElem?_eq_getElem hlen]

theorem readHeader_of_load {index : IndexAsUInt64}
    (h : PayloadSplit c p payload.length fit overflow) (hc : c < 2 ^ 32)
    (hindex : index.value.toNat = p % c) :
    (SPSCRingBuffer.readHeader host m index).toNat = payload.length := by
  have hfits := h.fits
  have hslice : Memory.slice m (p % c) 4 = objectBytes host 4 payload.length := by
    have hall : ∀ (i : Nat) (hi : i < (objectBytes host 4 payload.length).length),
        m (p % c + i) = (objectBytes host 4 payload.length)[i] := by
      intro i hi
      have hi4 : i < 4 := by simpa using hi
      have hbyte := load_record_byte host hload (k := i) (by omega)
      rw [h.header_slot hi4, recordBytes_header host _ hi4, List.getElem?_eq_getElem hi] at hbyte
      exact Option.some_inj.mp hbyte
    simpa using (Memory.slice_eq_iff m (p % c) _).mpr hall
  rw [SPSCRingBuffer.readHeader, hindex, hslice,
    ofObjectBytes_objectBytes host (by omega)]
  exact UInt32.toNat_ofNat_of_lt' (by change _ < 2 ^ 32; omega)

theorem pop_copies (h : PayloadSplit c p payload.length fit overflow) (msgBuf : Memory UInt8) :
    Memory.memcpy (Memory.memcpy msgBuf 0 m (p % c + 4) fit) fit m 0 overflow =
      Memory.memcpy msgBuf 0 (bytesAt payload) 0 payload.length := by
  have hsum := h.overflow_eq
  have hfit := h.fit_eq
  have hbyte : ∀ j, j < payload.length → m ((p + (4 + j)) % c) = bytesAt payload j := by
    intro j hj
    have hb := load_record_byte host hload (k := 4 + j) (by omega)
    rw [recordBytes_payload, List.getElem?_eq_getElem hj] at hb
    simpa [bytesAt, Memory.ofList, hj] using hb
  have hfirst : Memory.memcpy msgBuf 0 m (p % c + 4) fit =
      Memory.memcpy msgBuf 0 (bytesAt payload) 0 fit := by
    apply Memory.memcpy_congr
    intro j hj
    rw [← h.fit_slot hj, hbyte j (by omega), Nat.zero_add]
  have hsecond : Memory.memcpy (Memory.memcpy msgBuf 0 (bytesAt payload) 0 fit) fit m 0 overflow =
      Memory.memcpy (Memory.memcpy msgBuf 0 (bytesAt payload) 0 fit) fit (bytesAt payload) fit
        overflow := by
    apply Memory.memcpy_congr
    intro j hj
    rw [Nat.zero_add, ← hbyte (fit + j) (by omega), h.overflow_slot hj]
  have htotal : fit + overflow = payload.length := by omega
  have hjoin := Memory.memcpy_memcpy msgBuf (bytesAt payload) 0 0 fit overflow
  rw [Nat.zero_add, htotal] at hjoin
  rw [hfirst, hsecond, hjoin]

end Reading
end IpcChecker
