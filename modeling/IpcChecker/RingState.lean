import IpcChecker.RingRecords

/-!
# What a ring represents, and what one call does to it

A ring stands for the list of its unread payloads and the tape position of the
oldest one. Push and Pop either keep that reading or fail before touching the
ring; no assert on their way can fail.
-/

namespace IpcChecker
open Shared
set_option autoImplicit false

/-- The records of the unread payloads, laid out from tape position `q` on. -/
def Holds (host : Endianness) (c : Nat) (m : Memory UInt8) : Nat → List (List UInt8) → Prop
  | _, [] => True
  | q, payload :: rest =>
    Circular.load c m q (4 + payload.length) = recordBytes host payload ∧
      Holds host c m (q + recordSpace payload.length) rest

/-- The ring bytes taken by the unread payloads. -/
def unreadSpace (unread : List (List UInt8)) : Nat :=
  Fifo.load (fun payload => recordSpace payload.length) unread

structure Represents (host : Endianness) (ring : SPSCRingBuffer) (unread : List (List UInt8))
    (q : Nat) : Prop where
  aligned : ring.capacity.toNat % 4 = 0
  position : q % 4 = 0
  room : unreadSpace unread ≤ ring.capacity.toNat
  consumer : ring.consumerIndex = indexAt ring.capacity.toNat q
  producer : ring.producerIndex = indexAt ring.capacity.toNat (q + unreadSpace unread)
  records : Holds host ring.capacity.toNat ring.ringBuffer q unread

@[simp] theorem unreadSpace_nil : unreadSpace [] = 0 := rfl

@[simp] theorem unreadSpace_cons (payload : List UInt8) (rest : List (List UInt8)) :
    unreadSpace (payload :: rest) = recordSpace payload.length + unreadSpace rest :=
  Fifo.load_cons _ _ _

@[simp] theorem unreadSpace_append (unread rest : List (List UInt8)) :
    unreadSpace (unread ++ rest) = unreadSpace unread + unreadSpace rest := Fifo.load_append _ _ _

theorem unreadSpace_mod (unread : List (List UInt8)) : unreadSpace unread % 4 = 0 := by
  induction unread with
  | nil => rfl
  | cons payload rest ih =>
    have hspace := recordSpace_mod payload.length
    rw [unreadSpace_cons]
    omega

theorem unreadSpace_eq_zero_iff (unread : List (List UInt8)) :
    unreadSpace unread = 0 ↔ unread = [] := by
  constructor
  · intro h
    cases unread with
    | nil => rfl
    | cons payload rest =>
      have hle := le_recordSpace payload.length
      rw [unreadSpace_cons] at h
      omega
  · rintro rfl
    rfl

theorem holds_append (host : Endianness) (c : Nat) (m : Memory UInt8)
    (unread : List (List UInt8)) (payload : List UInt8) : ∀ q,
    Holds host c m q (unread ++ [payload]) ↔ Holds host c m q unread ∧
      Circular.load c m (q + unreadSpace unread) (4 + payload.length) =
        recordBytes host payload := by
  induction unread with
  | nil =>
    intro q
    simp [Holds]
  | cons first rest ih =>
    intro q
    simp only [List.cons_append, Holds, ih, unreadSpace_cons, ← Nat.add_assoc, and_assoc]

/-- A record written past the unread ones, and within a lap of the oldest, leaves them alone. -/
theorem holds_stored (host : Endianness) {c p : Nat} {xs : List UInt8} {m m' : Memory UInt8}
    (h : Circular.Stored c p xs m m') (unread : List (List UInt8)) : ∀ q,
    q + unreadSpace unread ≤ p → p + xs.length ≤ q + c →
      Holds host c m q unread → Holds host c m' q unread := by
  induction unread with
  | nil =>
    intro q _ _ _
    trivial
  | cons first rest ih =>
    intro q hq hp hm
    have hle := le_recordSpace first.length
    rw [unreadSpace_cons] at hq
    refine ⟨?_, ih (q + recordSpace first.length) (by omega) (by omega) hm.2⟩
    rw [h.load_disjoint (by omega) (by omega)]
    exact hm.1

namespace SPSCRingBuffer

theorem new_eq_initial {σ : Type} {capacity : UInt32} (h : capacity.toNat % 4 = 0)
    (ringBuffer : Memory UInt8) :
    (new capacity ringBuffer : Action σ SPSCRingBuffer) = pure (initial capacity ringBuffer) := by
  have hc := capacity.toNat_lt
  obtain ⟨aligned, hok, hnat⟩ := alignUpByRecordHeader_spec capacity (by omega)
  have haligned : aligned = capacity := by
    rw [← UInt32.toNat_inj, hnat]
    unfold alignedSize
    omega
  subst aligned
  simp [new, alignCapacity, hok]

theorem checkedRecordSize_fits {capacity : UInt32} {payloadSize : UInt64}
    (h : 4 + payloadSize.toNat ≤ capacity.toNat) :
    ∃ recordSize, (∀ {σ : Type}, (checkedRecordSize capacity payloadSize : Action σ UInt64) =
        pure recordSize) ∧ recordSize.toNat = 4 + payloadSize.toNat := by
  have hc := capacity.toNat_lt
  have hnat : (sizeofRecordHeader.toUInt64 + payloadSize).toNat = 4 + payloadSize.toNat := by
    rw [UInt64.toNat_add]
    exact Nat.mod_eq_of_lt (by change 4 + payloadSize.toNat < _; omega)
  refine ⟨_, ?_, hnat⟩
  intro σ
  have hpass : ¬ (sizeofRecordHeader.toUInt64 + payloadSize < payloadSize ∨
      capacity.toUInt64 < sizeofRecordHeader.toUInt64 + payloadSize) := by
    rw [UInt64.lt_iff_toNat_lt, UInt64.lt_iff_toNat_lt, hnat, UInt32.toNat_toUInt64]
    omega
  simp only [checkedRecordSize, if_neg hpass]

/-- The size check also rejects sizes whose 64-bit sum with the header wraps. -/
theorem checkedRecordSize_rejects {σ : Type} {capacity : UInt32} {payloadSize : UInt64}
    (h : capacity.toNat < 4 + payloadSize.toNat) :
    (checkedRecordSize capacity payloadSize : Action σ UInt64) =
      throw (.exception "message is not fit in ring memory buffer") := by
  have hsize := payloadSize.toNat_lt
  have hnat : (sizeofRecordHeader.toUInt64 + payloadSize).toNat =
      (4 + payloadSize.toNat) % 2 ^ 64 := UInt64.toNat_add _ _
  have hfail : sizeofRecordHeader.toUInt64 + payloadSize < payloadSize ∨
      capacity.toUInt64 < sizeofRecordHeader.toUInt64 + payloadSize := by
    rw [UInt64.lt_iff_toNat_lt, UInt64.lt_iff_toNat_lt, hnat, UInt32.toNat_toUInt64]
    omega
  simp only [checkedRecordSize]
  rw [if_pos hfail]
  rfl

end SPSCRingBuffer

namespace Represents
variable {host : Endianness} {ring : SPSCRingBuffer} {unread : List (List UInt8)} {q : Nat}

theorem of_initial (host : Endianness) {capacity : UInt32} (h : capacity.toNat % 4 = 0)
    (m : Memory UInt8) : Represents host (SPSCRingBuffer.initial capacity m) [] 0 where
  aligned := h
  position := rfl
  room := Nat.zero_le _
  consumer := (indexAt_zero _).symm
  producer := (indexAt_zero _).symm
  records := trivial

theorem capacity_pos_of_fits (h : Represents host ring unread q) {n : Nat}
    (hfit : 4 + n ≤ ring.capacity.toNat) : 0 < ring.capacity.toNat := by
  have := h.aligned
  omega

theorem capacity_pos_of_unread (h : Represents host ring unread q) (hne : unread ≠ []) :
    0 < ring.capacity.toNat := by
  have hroom := h.room
  have hspace := mt (unreadSpace_eq_zero_iff unread).mp hne
  omega

/-- Push's waiting loop breaks exactly when the aligned record fits beside the unread ones. -/
theorem pushLoopBreaks_eq (σ : Type) (h : Represents host ring unread q) {n : Nat}
    (hfit : 4 + n ≤ ring.capacity.toNat) {recordSize : UInt64} (hsize : recordSize.toNat = 4 + n) :
    (SPSCRingBuffer.pushLoopBreaks ring.capacity ring.producerIndex ring.consumerIndex recordSize :
      Action σ Bool) =
        pure (decide (recordSpace n + unreadSpace unread ≤ ring.capacity.toNat)) := by
  have hpos := h.capacity_pos_of_fits hfit
  rw [h.producer, h.consumer,
    pushLoopBreaks_indexAt ring.capacity.toNat_lt hpos h.room σ rfl recordSize, hsize]
  have hspace := unreadSpace_mod unread
  have hiff := recordSpace_le_iff (n := n) (b := ring.capacity.toNat - unreadSpace unread)
    (by have := h.aligned; have := h.room; omega)
  have hroom := h.room
  congr 2
  apply propext
  omega

theorem push_rejects (ring : SPSCRingBuffer) (payload : Memory UInt8) {payloadSize : UInt64}
    (hbig : ring.capacity.toNat < 4 + payloadSize.toNat) :
    (SPSCRingBuffer.push host payload payloadSize).run ring =
      .error (.exception "message is not fit in ring memory buffer") ring := by
  dsimp only [SPSCRingBuffer.push]
  rw [run_get_bind, SPSCRingBuffer.checkedRecordSize_rejects hbig]
  exact run_throw_bind _ _ _

theorem push_waits (h : Represents host ring unread q) (payload : Memory UInt8)
    {payloadSize : UInt64} (hfit : 4 + payloadSize.toNat ≤ ring.capacity.toNat)
    (hfull : ring.capacity.toNat < recordSpace payloadSize.toNat + unreadSpace unread) :
    (SPSCRingBuffer.push host payload payloadSize).run ring = .ok none ring := by
  obtain ⟨recordSize, hok, hsize⟩ := SPSCRingBuffer.checkedRecordSize_fits hfit
  have hloop := h.pushLoopBreaks_eq SPSCRingBuffer hfit hsize
  rw [decide_eq_false (by omega)] at hloop
  dsimp only [SPSCRingBuffer.push]
  rw [run_get_bind, hok, pure_bind, hloop, pure_bind]
  rfl

theorem push_appends (h : Represents host ring unread q) (payload : Memory UInt8)
    {payloadSize : UInt64} (hfit : 4 + payloadSize.toNat ≤ ring.capacity.toNat)
    (hroom : recordSpace payloadSize.toNat + unreadSpace unread ≤ ring.capacity.toNat) :
    ∃ ring', (SPSCRingBuffer.push host payload payloadSize).run ring = .ok (some ()) ring' ∧
      ring'.capacity = ring.capacity ∧ ring'.consumerIndex = ring.consumerIndex ∧
      Represents host ring' (unread ++ [Memory.slice payload 0 payloadSize.toNat]) q := by
  obtain ⟨recordSize, hok, hsize⟩ := SPSCRingBuffer.checkedRecordSize_fits hfit
  have hloop := h.pushLoopBreaks_eq SPSCRingBuffer hfit hsize
  rw [decide_eq_true hroom] at hloop
  have hc := ring.capacity.toNat_lt
  have hpos := h.capacity_pos_of_fits hfit
  have hn : payloadSize.toUInt32.toNat = payloadSize.toNat := by
    rw [UInt64.toNat_toUInt32]
    exact Nat.mod_eq_of_lt (by omega)
  have hp : (q + unreadSpace unread) % 4 = 0 := by
    have := h.position
    have := unreadSpace_mod unread
    omega
  obtain ⟨fit, overflow, hadvance, hfitnat, hovernat⟩ :=
    processMessage_indexAt (SPSCRingBuffer.pushBytesCopier ring.producerIndex payload)
      h.aligned hp (hn.symm ▸ hfit)
  rw [← h.producer] at hadvance
  rw [hn] at hadvance hfitnat hovernat
  have hval : ring.producerIndex.value.toNat =
      (q + unreadSpace unread) % ring.capacity.toNat := by
    rw [h.producer, indexAt_value hc hpos]
  have hstored := push_stores host ⟨h.aligned, hp, hfit, hfitnat, hovernat⟩ ring.ringBuffer payload
  refine ⟨{ ring with
      ringBuffer := Memory.memcpy
        (Memory.memcpy
          (Memory.memcpy ring.ringBuffer ((q + unreadSpace unread) % ring.capacity.toNat)
            (bytesAt (objectBytes host 4 payloadSize.toNat)) 0 4)
          ((q + unreadSpace unread) % ring.capacity.toNat + 4) payload 0 fit.toNat)
        0 payload fit.toNat overflow.toNat
      producerIndex := indexAt ring.capacity.toNat
        (q + unreadSpace unread + recordSpace payloadSize.toNat) }, ?_, rfl, rfl, ?_⟩
  · dsimp only [SPSCRingBuffer.push]
    rw [run_get_bind, hok, pure_bind, hloop, pure_bind, if_pos rfl, hadvance]
    simp only [SPSCRingBuffer.writeHeader, SPSCRingBuffer.pushBytesCopier,
      SPSCRingBuffer.payloadAddress, bind_assoc, run_modify_bind, pure_bind, hval, hn]
    rfl
  · refine ⟨h.aligned, h.position, ?_, h.consumer, ?_, ?_⟩
    · simpa [Nat.add_comm] using hroom
    · simp [Nat.add_assoc]
    · apply (holds_append host _ _ unread _ q).mpr
      refine ⟨holds_stored host hstored unread q (Nat.le_refl _) ?_ h.records, ?_⟩
      · have hlen := le_recordSpace payloadSize.toNat
        rw [recordBytes_length, Memory.slice_length]
        omega
      · simpa using hstored.load_same

theorem pop_waits (h : Represents host ring [] q) (msgBuf : Memory UInt8)
    (msgBufCapacity : UInt64) :
    (SPSCRingBuffer.pop host msgBufCapacity).run ⟨ring, msgBuf⟩ = .ok none ⟨ring, msgBuf⟩ := by
  have heq : ring.consumerIndex = ring.producerIndex := by
    rw [h.consumer, h.producer]
    rfl
  dsimp only [SPSCRingBuffer.pop]
  rw [run_get_bind, if_pos heq]
  rfl

section Pop
variable {payload : List UInt8} {rest : List (List UInt8)}
variable (h : Represents host ring (payload :: rest) q)
include h

theorem fits_of_unread : 4 + payload.length ≤ ring.capacity.toNat := by
  have hroom := h.room
  have hle := le_recordSpace payload.length
  rw [unreadSpace_cons] at hroom
  omega

theorem indices_ne : ring.consumerIndex ≠ ring.producerIndex := by
  have hpos := h.capacity_pos_of_unread (List.cons_ne_nil _ _)
  rw [h.consumer, h.producer]
  intro heq
  have hzero := (indexAt_eq_iff ring.capacity.toNat_lt hpos h.room).mp heq
  exact List.cons_ne_nil _ _ ((unreadSpace_eq_zero_iff _).mp hzero)

theorem consumer_value : ring.consumerIndex.value.toNat = q % ring.capacity.toNat := by
  rw [h.consumer, indexAt_value ring.capacity.toNat_lt
    (h.capacity_pos_of_unread (List.cons_ne_nil _ _))]

theorem readHeader_eq :
    (SPSCRingBuffer.readHeader host ring.ringBuffer ring.consumerIndex).toNat =
      payload.length :=
  readHeader_of_load host h.records.1 ⟨h.aligned, h.position, h.fits_of_unread, rfl, rfl⟩
    ring.capacity.toNat_lt h.consumer_value

theorem pop_rejects (msgBuf : Memory UInt8) {msgBufCapacity : UInt64}
    (hsmall : msgBufCapacity.toNat < payload.length) :
    (SPSCRingBuffer.pop host msgBufCapacity).run ⟨ring, msgBuf⟩ =
      .error (.exception "message is not fit in outer memory buffer") ⟨ring, msgBuf⟩ := by
  have hgt : (SPSCRingBuffer.readHeader host ring.ringBuffer ring.consumerIndex).toUInt64 >
      msgBufCapacity := by
    change msgBufCapacity < _
    rw [UInt64.lt_iff_toNat_lt, UInt32.toNat_toUInt64, h.readHeader_eq]
    exact hsmall
  dsimp only [SPSCRingBuffer.pop]
  rw [run_get_bind, if_neg h.indices_ne, if_pos hgt]
  exact run_throw_bind _ _ _

theorem pop_takes (msgBuf : Memory UInt8) {msgBufCapacity : UInt64}
    (hroom : payload.length ≤ msgBufCapacity.toNat) :
    ∃ ring', (SPSCRingBuffer.pop host msgBufCapacity).run ⟨ring, msgBuf⟩ =
        .ok (some (UInt64.ofNat payload.length))
          ⟨ring', Memory.memcpy msgBuf 0 (bytesAt payload) 0 payload.length⟩ ∧
      ring'.capacity = ring.capacity ∧ ring'.producerIndex = ring.producerIndex ∧
      ring'.ringBuffer = ring.ringBuffer ∧
      Represents host ring' rest (q + recordSpace payload.length) := by
  have hsize := h.readHeader_eq
  generalize hread : SPSCRingBuffer.readHeader host ring.ringBuffer ring.consumerIndex =
    payloadSize at hsize
  have hle : ¬ payloadSize.toUInt64 > msgBufCapacity := by
    change ¬ msgBufCapacity < _
    rw [UInt64.lt_iff_toNat_lt, UInt32.toNat_toUInt64, hsize]
    omega
  obtain ⟨fit, overflow, hadvance, hfitnat, hovernat⟩ :=
    processMessage_indexAt (SPSCRingBuffer.popBytesCopier ring.consumerIndex)
      h.aligned h.position (hsize.symm ▸ h.fits_of_unread)
  rw [← h.consumer] at hadvance
  rw [hsize] at hadvance hfitnat hovernat
  have hcopies := pop_copies host h.records.1
    ⟨h.aligned, h.position, h.fits_of_unread, hfitnat, hovernat⟩ msgBuf
  have hword : payloadSize.toUInt64 = UInt64.ofNat payload.length := by
    rw [← UInt64.toNat_inj, UInt32.toNat_toUInt64, hsize]
    have hfit := h.fits_of_unread
    have hc := ring.capacity.toNat_lt
    exact (UInt64.toNat_ofNat_of_lt' (by change _ < 2 ^ 64; omega)).symm
  refine ⟨{ ring with
      consumerIndex := indexAt ring.capacity.toNat (q + recordSpace payload.length) },
    ?_, rfl, rfl, rfl, ?_⟩
  · dsimp only [SPSCRingBuffer.pop]
    rw [run_get_bind, if_neg h.indices_ne, hread, if_neg hle, hadvance]
    simp only [SPSCRingBuffer.popBytesCopier, SPSCRingBuffer.payloadAddress, bind_assoc,
      run_modify_bind, pure_bind, h.consumer_value]
    rw [← hcopies, hword]
    rfl
  · have hroom := h.room
    have hproducer := h.producer
    rw [unreadSpace_cons] at hroom hproducer
    have hspace := recordSpace_mod payload.length
    have hq := h.position
    exact ⟨h.aligned, by omega, Nat.le_trans (Nat.le_add_left _ _) hroom, rfl,
      by rw [hproducer, Nat.add_assoc], h.records.2⟩

end Pop
end Represents
end IpcChecker
