import IpcChecker.RingBuffer
import Mathlib.Tactic.Ring
import Mathlib.Data.Nat.Bitwise

/-!
# The ring index as a position on an unbounded tape

`indexAt c p` is what the code stores for the tape position `p`: the offset and
the lap, both in 32 bits. `ProcessMessage` advances the position by the space of
one record, and the free size computed from two positions is the capacity less
their distance.
-/

namespace IpcChecker
open Shared
set_option autoImplicit false

/-- `n` rounded up to a multiple of the header size. -/
def alignedSize (n : Nat) : Nat := (n + 3) / 4 * 4

/-- The ring bytes taken by a record: header, payload and padding. -/
def recordSpace (n : Nat) : Nat := 4 + alignedSize n

theorem recordSpace_eq (n : Nat) : recordSpace n = alignedSize (4 + n) := by
  unfold recordSpace alignedSize
  omega

theorem recordSpace_mod (n : Nat) : recordSpace n % 4 = 0 := by
  unfold recordSpace alignedSize
  omega

theorem le_recordSpace (n : Nat) : 4 + n ≤ recordSpace n := by
  unfold recordSpace alignedSize
  omega

/-- Against an aligned bound the rounding makes no difference. -/
theorem recordSpace_le_iff {n b : Nat} (hb : b % 4 = 0) : recordSpace n ≤ b ↔ 4 + n ≤ b := by
  unfold recordSpace alignedSize
  omega

theorem toNat_and_not_three (x : UInt32) : (x &&& ~~~3).toNat = x.toNat / 4 * 4 := by
  have hx := x.toNat_lt
  have hmask : (~~~(3 : UInt32)).toNat = 4294967292 := by decide
  rw [UInt32.toNat_and, hmask]
  have hdiv : (x.toNat &&& 4294967292) / 2 ^ 2 = x.toNat / 2 ^ 2 := by
    rw [Nat.and_div_two_pow]
    exact (Nat.and_two_pow_sub_one_eq_mod _ 30).trans (Nat.mod_eq_of_lt (by omega))
  have hmod : (x.toNat &&& 4294967292) % 2 ^ 2 = 0 := by
    rw [Nat.and_mod_two_pow]
    exact Nat.and_zero _
  omega

theorem alignUpByRecordHeader_spec (value : UInt32) (h : value.toNat + 3 < 2 ^ 32) :
    ∃ aligned, (∀ {σ : Type}, (alignUpByRecordHeader value : Action σ UInt32) = pure aligned) ∧
      aligned.toNat = alignedSize value.toNat := by
  have hsum : (value + 4 - 1).toNat = value.toNat + 3 := by
    have hstep : value + 4 - 1 = value + 3 := by
      rw [UInt32.sub_eq_add_neg, UInt32.add_assoc]
      rfl
    rw [hstep, UInt32.toNat_add]
    simpa using h
  have haligned := toNat_and_not_three (value + 4 - 1)
  rw [hsum] at haligned
  have hle : value ≤ (value + 4 - 1) &&& ~~~3 := by
    rw [UInt32.le_iff_toNat_le, haligned]
    omega
  refine ⟨(value + 4 - 1) &&& ~~~3, ?_, haligned⟩
  intro σ
  change (assert _ >>= fun _ => _) = _
  rw [assert_true (by exact hle)]
  rfl

theorem mask_and (p : Prop) [Decidable p] (x : UInt32) :
    mask p &&& x = if p then x else 0 := by
  unfold mask
  split
  · exact UInt32.neg_one_and
  · simp

/-- The fit part fills the rest of the ring exactly when the record reaches its end. -/
theorem alignedSize_fit_iff {v n c : Nat} (hc : c % 4 = 0) (hv : v % 4 = 0) (hlt : v < c) :
    alignedSize (min n (c - (v + 4))) = c - (v + 4) ↔ c ≤ v + recordSpace n := by
  unfold recordSpace alignedSize
  omega

theorem next_of_crossing {v n c : Nat} (hc : c % 4 = 0) (hv : v % 4 = 0) (hlt : v < c)
    (hn : 4 + n ≤ c) (h : c ≤ v + recordSpace n) :
    alignedSize (n - min n (c - (v + 4))) = (v + recordSpace n) % c := by
  have hsub : v + recordSpace n - c < c := by
    unfold recordSpace alignedSize
    omega
  rw [Nat.mod_eq_sub_mod h, Nat.mod_eq_of_lt hsub]
  unfold recordSpace alignedSize at *
  omega

theorem next_of_staying {v n c : Nat} (hc : c % 4 = 0) (hv : v % 4 = 0) (hlt : v < c)
    (h : v + recordSpace n < c) :
    v + 4 + alignedSize (min n (c - (v + 4))) + alignedSize (n - min n (c - (v + 4))) =
      (v + recordSpace n) % c := by
  rw [Nat.mod_eq_of_lt h]
  unfold recordSpace alignedSize at *
  omega

theorem overflowed_part (free payloadSize : UInt32) :
    (mask (free < payloadSize) &&& (payloadSize - free)).toNat =
      payloadSize.toNat - min payloadSize.toNat free.toNat := by
  rw [mask_and]
  split
  · rename_i hless
    have hnat := UInt32.lt_iff_toNat_lt.mp hless
    rw [UInt32.toNat_sub_of_le _ _ (UInt32.le_of_lt hless)]
    omega
  · rename_i hmore
    have hnat : payloadSize.toNat ≤ free.toNat := by
      rw [UInt32.lt_iff_toNat_lt] at hmore
      omega
    simp [hnat]

/-- The advance with its parts read as naturals; every assert on the way holds. -/
theorem processMessage_spec {σ : Type} (bytesCopier : UInt32 → UInt32 → Action σ Unit)
    {index : IndexAsUInt64} {payloadSize capacity : UInt32}
    (hcap : capacity.toNat % 4 = 0) (hval : index.value.toNat % 4 = 0)
    (hlt : index.value.toNat < capacity.toNat) (hfit : 4 + payloadSize.toNat ≤ capacity.toNat) :
    ∃ fit overflow new,
      processMessage bytesCopier index payloadSize capacity =
        (bytesCopier fit overflow >>= fun _ => pure new) ∧
      fit.toNat = min payloadSize.toNat (capacity.toNat - (index.value.toNat + 4)) ∧
      overflow.toNat = payloadSize.toNat - fit.toNat ∧
      new.value.toNat =
        (index.value.toNat + recordSpace payloadSize.toNat) % capacity.toNat ∧
      new.version = index.version +
        (if capacity.toNat ≤ index.value.toNat + recordSpace payloadSize.toNat then 1 else 0) := by
  have hc := capacity.toNat_lt
  have hvalue : (index.value + sizeofRecordHeader).toNat = index.value.toNat + 4 := by
    rw [UInt32.toNat_add]
    exact Nat.mod_eq_of_lt (by change index.value.toNat + 4 < _; omega)
  generalize hv : index.value + sizeofRecordHeader = value at hvalue
  have hle1 : value ≤ capacity := by rw [UInt32.le_iff_toNat_le]; omega
  have hfree : (capacity - value).toNat = capacity.toNat - (index.value.toNat + 4) := by
    rw [UInt32.toNat_sub_of_le _ _ hle1, hvalue]
  generalize hf : capacity - value = free at hfree
  have hle2 : free ≤ capacity := by rw [UInt32.le_iff_toNat_le]; omega
  have hovernat := overflowed_part free payloadSize
  generalize ho : mask (free < payloadSize) &&& (payloadSize - free) = overflow at hovernat
  have hle3 : overflow ≤ payloadSize := by rw [UInt32.le_iff_toNat_le]; omega
  have hfitnat : (payloadSize - overflow).toNat = min payloadSize.toNat free.toNat := by
    rw [UInt32.toNat_sub_of_le _ _ hle3, hovernat]
    omega
  generalize hfp : payloadSize - overflow = fit at hfitnat
  obtain ⟨fitAligned, hfitAligned, hfitAlignedNat⟩ :=
    alignUpByRecordHeader_spec fit (by omega)
  obtain ⟨overAligned, hoverAligned, hoverAlignedNat⟩ :=
    alignUpByRecordHeader_spec overflow (by omega)
  rw [hfitnat, hfree] at hfitAlignedNat
  rw [hovernat, hfree] at hoverAlignedNat
  have hle4 : fitAligned ≤ free := by
    rw [UInt32.le_iff_toNat_le, hfitAlignedNat, hfree]
    unfold alignedSize
    omega
  have hwrap : fitAligned = free ↔
      capacity.toNat ≤ index.value.toNat + recordSpace payloadSize.toNat := by
    rw [← UInt32.toNat_inj, hfitAlignedNat, hfree]
    exact alignedSize_fit_iff hcap hval hlt
  have hnext : ((mask (fitAligned ≠ free) &&& (value + fitAligned)) + overAligned).toNat =
      (index.value.toNat + recordSpace payloadSize.toNat) % capacity.toNat := by
    have hbound : (index.value.toNat + recordSpace payloadSize.toNat) % capacity.toNat <
        capacity.toNat := Nat.mod_lt _ (by omega)
    rw [mask_and, UInt32.toNat_add]
    by_cases hcross : fitAligned = free
    · have hnat := next_of_crossing hcap hval hlt hfit (hwrap.mp hcross)
      rw [if_neg (by simpa using hcross), hoverAlignedNat, hnat, UInt32.toNat_zero, Nat.zero_add]
      exact Nat.mod_eq_of_lt (by omega)
    · have hnat := next_of_staying hcap hval hlt (Nat.lt_of_not_le (mt hwrap.mpr hcross))
      have hsum : (value + fitAligned).toNat = value.toNat + fitAligned.toNat := by
        rw [UInt32.toNat_add]
        exact Nat.mod_eq_of_lt (by omega)
      rw [if_pos hcross, hsum, hvalue, hfitAlignedNat, hoverAlignedNat, hnat]
      exact Nat.mod_eq_of_lt (by omega)
  have hle5 : (mask (fitAligned ≠ free) &&& (value + fitAligned)) + overAligned < capacity := by
    rw [UInt32.lt_iff_toNat_lt, hnext]
    exact Nat.mod_lt _ (by omega)
  refine ⟨fit, overflow,
    ⟨(mask (fitAligned ≠ free) &&& (value + fitAligned)) + overAligned,
      index.version + if fitAligned = free then 1 else 0⟩, ?_, ?_, ?_, hnext, ?_⟩
  · unfold processMessage
    simp only
    rw [hv, hf, ho, hfp]
    simp only [hfitAligned, hoverAligned, assert_true hle1, assert_true hle2, assert_true hle3,
      assert_true hle4, assert_true hle5, pure_bind]
  · rw [hfitnat, hfree]
  · rw [hovernat, hfitnat]
  · simp only [hwrap]

/-- The plain advance over a payload of `n` bytes: the payload is split at the end of the ring,
the offset moves over the header and the padded payload, and the lap counts the crossings. -/
structure PlainAdvance (c n : Nat) (index new : IndexAsUInt64) (fit overflow : Nat) : Prop where
  parts : fit + overflow = n
  fit_le : index.value.toNat + 4 + fit ≤ c
  overflow_le : overflow ≤ index.value.toNat
  overflow_after_end : overflow ≠ 0 → index.value.toNat + 4 + fit = c
  value : new.value.toNat = (index.value.toNat + 4 + alignedSize n) % c
  version_crossing : c ≤ index.value.toNat + 4 + alignedSize n →
    new.version.toNat = (index.version.toNat + 1) % 2 ^ 32
  version_staying : index.value.toNat + 4 + alignedSize n < c → new.version = index.version

/-- The branch-free arithmetic is the plain advance, and nothing but the copier can fail. -/
theorem processMessage_advances {σ : Type} (bytesCopier : UInt32 → UInt32 → Action σ Unit)
    {index : IndexAsUInt64} {payloadSize capacity : UInt32}
    (hcap : capacity.toNat % 4 = 0) (hval : index.value.toNat % 4 = 0)
    (hlt : index.value.toNat < capacity.toNat) (hfit : 4 + payloadSize.toNat ≤ capacity.toNat) :
    ∃ fit overflow new,
      processMessage bytesCopier index payloadSize capacity =
        (bytesCopier fit overflow >>= fun _ => pure new) ∧
      PlainAdvance capacity.toNat payloadSize.toNat index new fit.toNat overflow.toNat := by
  obtain ⟨fit, overflow, new, hok, hfitnat, hovernat, hnewval, hnewver⟩ :=
    processMessage_spec bytesCopier hcap hval hlt hfit
  have hspace : index.value.toNat + recordSpace payloadSize.toNat =
      index.value.toNat + 4 + alignedSize payloadSize.toNat := (Nat.add_assoc _ _ _).symm
  rw [hspace] at hnewval hnewver
  refine ⟨fit, overflow, new, hok, ?_⟩
  constructor
  · omega
  · omega
  · omega
  · intro hover
    omega
  · exact hnewval
  · intro hcross
    rw [hnewver, if_pos hcross, UInt32.toNat_add]
    rfl
  · intro hstay
    rw [hnewver, if_neg (Nat.not_le_of_lt hstay), UInt32.add_zero]

/-- A payload across the end of the ring, at the last version. -/
theorem processMessage_advances_wrapping :
    ∃ (fit overflow : UInt32) (new : IndexAsUInt64),
      processMessage (fun fit overflow => (set (fit, overflow) : Action (UInt32 × UInt32) Unit))
          ⟨8, 4294967295⟩ 7 16 =
        (set (fit, overflow) >>= fun _ => pure new) ∧
      PlainAdvance 16 7 ⟨8, 4294967295⟩ new fit.toNat overflow.toNat :=
  processMessage_advances _ (by decide) (by decide) (by decide) (by decide)

/-- The stored index of the tape position `p`. -/
def indexAt (c p : Nat) : IndexAsUInt64 := ⟨UInt32.ofNat (p % c), UInt32.ofNat (p / c)⟩

theorem indexAt_value {c : Nat} (hc : c < 2 ^ 32) (h0 : 0 < c) (p : Nat) :
    (indexAt c p).value.toNat = p % c := by
  have hp := Nat.mod_lt p h0
  exact UInt32.toNat_ofNat_of_lt' (by change p % c < 2 ^ 32; omega)

theorem indexAt_zero (c : Nat) : indexAt c 0 = ⟨0, 0⟩ := by simp [indexAt]

section Positions
variable {c q k : Nat} (hc : c < 2 ^ 32) (h0 : 0 < c) (hk : k ≤ c)
include hc h0 hk

/-- The two relations of versions and values that the code's asserts allow. -/
theorem indexAt_cases :
    ((indexAt c (q + k)).version = (indexAt c q).version ∧ q % c + k < c ∧
      (indexAt c (q + k)).value.toNat = (indexAt c q).value.toNat + k) ∨
    ((indexAt c (q + k)).version = (indexAt c q).version + 1 ∧
      (indexAt c (q + k)).version ≠ (indexAt c q).version ∧ c ≤ q % c + k ∧
      (indexAt c (q + k)).value.toNat + c = (indexAt c q).value.toNat + k) := by
  rw [indexAt_value hc h0, indexAt_value hc h0]
  rcases Circular.advance_cases (p := q) hk h0 with ⟨hstay, hlap, hval⟩ | ⟨hcross, hlap, hval⟩
  · refine Or.inl ⟨?_, hstay, hval⟩
    simp only [indexAt, hlap]
  · have hnext : (indexAt c (q + k)).version = (indexAt c q).version + 1 := by
      simp [indexAt, hlap]
    refine Or.inr ⟨hnext, ?_, hcross, by omega⟩
    rw [hnext]
    simp

theorem bufferFreeSize_indexAt {capacity : UInt32} (hcap : capacity.toNat = c) :
    (SPSCRingBuffer.bufferFreeSize capacity (indexAt c (q + k)) (indexAt c q)).toNat = c - k := by
  unfold SPSCRingBuffer.bufferFreeSize
  rw [mask_and, mask_and]
  rcases indexAt_cases hc h0 hk (q := q) with ⟨hver, hstay, hval⟩ | ⟨hver, hne, hcross, hval⟩
  · have hle : (indexAt c q).value ≤ (indexAt c (q + k)).value := by
      rw [UInt32.le_iff_toNat_le]
      omega
    have hsub := UInt32.toNat_sub_of_le _ _ hle
    have hle' : (indexAt c (q + k)).value - (indexAt c q).value ≤ capacity := by
      rw [UInt32.le_iff_toNat_le]
      omega
    rw [if_pos hver.symm, if_neg (by simpa using hver), UInt32.add_zero,
      UInt32.toNat_sub_of_le _ _ hle']
    omega
  · have hle : (indexAt c (q + k)).value ≤ (indexAt c q).value := by
      rw [UInt32.le_iff_toNat_le]
      omega
    rw [if_neg (fun h => hne h.symm), if_pos hne, UInt32.zero_add, UInt32.toNat_sub_of_le _ _ hle]
    omega

/-- Push's waiting loop compares the record with the capacity less the distance. -/
theorem pushLoopBreaks_indexAt (σ : Type) {capacity : UInt32} (hcap : capacity.toNat = c)
    (recordSize : UInt64) :
    (SPSCRingBuffer.pushLoopBreaks capacity (indexAt c (q + k)) (indexAt c q) recordSize :
      Action σ Bool) = pure (decide (recordSize.toNat + k ≤ c)) := by
  have hfree := bufferFreeSize_indexAt hc h0 hk (q := q) hcap
  have hvalue := indexAt_value hc h0 q
  have hbound := Nat.mod_lt q h0
  have h1 : (indexAt c q).value < capacity := by
    rw [UInt32.lt_iff_toNat_lt]
    omega
  have h2 : ((indexAt c q).version = (indexAt c (q + k)).version ∧
        (indexAt c q).value ≤ (indexAt c (q + k)).value) ∨
      ((indexAt c q).version ≠ (indexAt c (q + k)).version ∧
        (indexAt c (q + k)).value ≤ (indexAt c q).value) := by
    rw [UInt32.le_iff_toNat_le, UInt32.le_iff_toNat_le]
    rcases indexAt_cases hc h0 hk (q := q) with ⟨hver, _, hval⟩ | ⟨_, hne, _, hval⟩
    · exact Or.inl ⟨hver.symm, by omega⟩
    · exact Or.inr ⟨fun h => hne h.symm, by omega⟩
  have h3 : SPSCRingBuffer.bufferFreeSize capacity (indexAt c (q + k)) (indexAt c q) ≤
      capacity := by
    rw [UInt32.le_iff_toNat_le]
    omega
  simp only [SPSCRingBuffer.pushLoopBreaks, assert_true h1, assert_true h2, assert_true h3, pure_bind]
  congr 2
  rw [UInt64.le_iff_toNat_le, UInt32.toNat_toUInt64, hfree]
  apply propext
  omega

theorem indexAt_eq_iff : indexAt c q = indexAt c (q + k) ↔ k = 0 := by
  constructor
  · intro h
    rcases indexAt_cases hc h0 hk (q := q) with ⟨_, _, hval⟩ | ⟨_, hne, _, _⟩
    · rw [← h] at hval
      omega
    · exact absurd (congrArg IndexAsUInt64.version h).symm hne
  · rintro rfl
    rfl

end Positions

theorem processMessage_indexAt {σ : Type} (bytesCopier : UInt32 → UInt32 → Action σ Unit)
    {capacity payloadSize : UInt32} {p : Nat} (hcap : capacity.toNat % 4 = 0) (hp : p % 4 = 0)
    (hfit : 4 + payloadSize.toNat ≤ capacity.toNat) :
    ∃ fit overflow,
      processMessage bytesCopier (indexAt capacity.toNat p) payloadSize capacity =
        (bytesCopier fit overflow >>= fun _ =>
          pure (indexAt capacity.toNat (p + recordSpace payloadSize.toNat))) ∧
      fit.toNat = min payloadSize.toNat (capacity.toNat - (p % capacity.toNat + 4)) ∧
      overflow.toNat = payloadSize.toNat - fit.toNat := by
  have hc := capacity.toNat_lt
  have h0 : 0 < capacity.toNat := by omega
  have hvalue := indexAt_value hc h0 p
  have hvalmod : p % capacity.toNat % 4 = 0 := by
    rw [Nat.mod_mod_of_dvd _ (Nat.dvd_of_mod_eq_zero hcap)]
    exact hp
  have hspace : recordSpace payloadSize.toNat ≤ capacity.toNat :=
    (recordSpace_le_iff hcap).mpr hfit
  obtain ⟨fit, overflow, new, hok, hfitnat, hovernat, hnewval, hnewver⟩ :=
    processMessage_spec bytesCopier hcap (hvalue ▸ hvalmod)
      (hvalue ▸ Nat.mod_lt p h0) hfit
  rw [hvalue] at hfitnat hnewval hnewver
  refine ⟨fit, overflow, ?_, hfitnat, hovernat⟩
  have hnew : new = indexAt capacity.toNat (p + recordSpace payloadSize.toNat) := by
    have hv : new.value = (indexAt capacity.toNat (p + recordSpace payloadSize.toNat)).value := by
      rw [← UInt32.toNat_inj, hnewval, indexAt_value hc h0, Nat.mod_add_mod]
    have hver : new.version =
        (indexAt capacity.toNat (p + recordSpace payloadSize.toNat)).version := by
      rw [hnewver]
      simp only [indexAt, Circular.lap_add hspace h0]
      split <;> simp
    cases new
    simp only at hv hver
    rw [hv, hver]
  rw [hok, hnew]

end IpcChecker
