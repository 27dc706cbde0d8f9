import IpcChecker.RingInterleaving

/-!
# Safety of every interleaving

The invariant places each index at a tape position: the producer at the end of
all published records, the consumer at the end of the released ones. A delayed
view of the consumer lies at most one lap behind the producer, because the guard
was passed against such a view and later views are never older.
-/

namespace IpcChecker
open Shared
set_option autoImplicit false

/-! Tape positions of published records. -/

/-- The tape position after the first `j` payloads. -/
def position (payloads : List (List UInt8)) (j : Nat) : Nat := unreadSpace (payloads.take j)

theorem position_mod (payloads : List (List UInt8)) (j : Nat) : position payloads j % 4 = 0 :=
  unreadSpace_mod _

theorem position_succ {payloads : List (List UInt8)} {j : Nat} {payload : List UInt8}
    (h : payloads[j]? = some payload) :
    position payloads (j + 1) = position payloads j + recordSpace payload.length := by
  unfold position
  rw [List.take_add_one, h]
  simp

theorem position_append (payloads more : List (List UInt8)) {j : Nat} (h : j ≤ payloads.length) :
    position (payloads ++ more) j = position payloads j := by
  unfold position
  rw [List.take_append_of_le_length h]

theorem position_add_drop (payloads : List (List UInt8)) (j : Nat) :
    position payloads j + unreadSpace (payloads.drop j) = position payloads payloads.length := by
  unfold position
  rw [← unreadSpace_append, List.take_append_drop, List.take_length]

theorem position_mono (payloads : List (List UInt8)) {j k : Nat} (h : j ≤ k) :
    position payloads j ≤ position payloads k := by
  obtain ⟨n, rfl⟩ := Nat.exists_eq_add_of_le h
  unfold position
  rw [List.take_add, unreadSpace_append]
  omega

/-! Transfers and the cells of a record. -/

/-- A transfer of `n` payload bytes from the tape position `p` on. -/
structure Carries (c p n : Nat) (t : Transfer) : Prop where
  index : t.index = indexAt c p
  size : t.payloadSize.toNat = n
  next : t.next = indexAt c (p + recordSpace n)
  address : ∀ k, k < n → t.address k = (p + (4 + k)) % c

theorem Transfer.start_indexAt {capacity payloadSize : UInt32} {p : Nat}
    (hcap : capacity.toNat % 4 = 0) (hp : p % 4 = 0)
    (hfit : 4 + payloadSize.toNat ≤ capacity.toNat) :
    ∃ t, Transfer.start (indexAt capacity.toNat p) payloadSize capacity = .ok t ∧
      Carries capacity.toNat p payloadSize.toNat t := by
  obtain ⟨fitPart, overflow, hadvance, hfitnat, hovernat⟩ :=
    processMessage_indexAt (fun fitPart _ => (set fitPart : Action UInt32 Unit)) hcap hp hfit
  have hsplit : PayloadSplit capacity.toNat p payloadSize.toNat fitPart.toNat overflow.toNat :=
    ⟨hcap, hp, hfit, hfitnat, hovernat⟩
  have hvalue : (indexAt capacity.toNat p).value.toNat = p % capacity.toNat :=
    indexAt_value capacity.toNat_lt (by omega) p
  refine ⟨⟨indexAt capacity.toNat p, payloadSize, fitPart,
    indexAt capacity.toNat (p + recordSpace payloadSize.toNat)⟩, ?_, rfl, rfl, rfl, ?_⟩
  · unfold Transfer.start
    rw [hadvance]
    rfl
  · intro k hk
    unfold Transfer.address SPSCRingBuffer.payloadAddress
    split
    · rename_i hfirst
      rw [hsplit.fit_slot hfirst, hvalue]
      rfl
    · rename_i hsecond
      obtain ⟨j, rfl⟩ := Nat.exists_eq_add_of_le (Nat.le_of_not_lt hsecond)
      have hj : fitPart.toNat + j < payloadSize.toNat := hk
      rw [hsplit.overflow_slot (by omega)]
      exact Nat.add_sub_cancel_left _ _

/-- The cells of a record are the window of its space at its position. -/
theorem inRecord_iff {capacity : UInt32} {p n : Nat} (hcap : capacity.toNat % 4 = 0)
    (hp : p % 4 = 0) (hfit : 4 + n ≤ capacity.toNat) (a : Nat) :
    InRecord capacity (indexAt capacity.toNat p) n a ↔
      ∃ k, k < recordSpace n ∧ (p + k) % capacity.toNat = a := by
  have hlt := Nat.mod_lt p (show 0 < capacity.toNat by omega)
  have hmod : p % capacity.toNat % 4 = 0 := by
    rw [Nat.mod_mod_of_dvd _ (Nat.dvd_of_mod_eq_zero hcap)]
    exact hp
  unfold InRecord
  simp only [indexAt_value capacity.toNat_lt (show 0 < capacity.toNat by omega)]
  have hspace := (recordSpace_le_iff hcap).mpr hfit
  constructor
  · unfold recordSpace alignedSize at *
    rintro (⟨hge, hless⟩ | ⟨hge, hless⟩ | hless)
    · refine ⟨a - p % capacity.toNat, by omega, ?_⟩
      rw [Circular.slot_add_of_lt (by omega)]
      omega
    · refine ⟨a - p % capacity.toNat, by omega, ?_⟩
      rw [Circular.slot_add_of_lt (by omega)]
      omega
    · refine ⟨capacity.toNat - p % capacity.toNat + a, by omega, ?_⟩
      rw [Circular.slot_add_of_ge (by omega) (by omega)]
      omega
  · rintro ⟨k, hk, rfl⟩
    rcases Nat.lt_or_ge (p % capacity.toNat + k) capacity.toNat with hstay | hcross
    · rw [Circular.slot_add_of_lt hstay]
      unfold recordSpace alignedSize at *
      omega
    · rw [Circular.slot_add_of_ge hcross (by omega)]
      unfold recordSpace alignedSize at *
      omega

/-! The invariant. -/

/-- The values one side has stored once `n` records went through it. -/
def storesAt (c : Nat) (payloads : List (List UInt8)) (n : Nat) : List IndexAsUInt64 :=
  (List.range (n + 1)).map fun j => indexAt c (position payloads j)

theorem storesAt_get {c n i : Nat} {payloads : List (List UInt8)} {index : IndexAsUInt64}
    (h : (storesAt c payloads n)[i]? = some index) :
    i ≤ n ∧ index = indexAt c (position payloads i) := by
  obtain ⟨hlt, hget⟩ := List.getElem?_eq_some_iff.mp h
  refine ⟨by simpa [storesAt, Nat.lt_succ_iff] using hlt, ?_⟩
  rw [← hget]
  simp [storesAt]

theorem storesAt_succ (c : Nat) (payloads : List (List UInt8)) (n : Nat) :
    storesAt c payloads (n + 1) =
      storesAt c payloads n ++ [indexAt c (position payloads (n + 1))] := by
  unfold storesAt
  rw [List.range_succ, List.map_append]
  rfl

theorem storesAt_append (c : Nat) (payloads more : List (List UInt8)) {n : Nat}
    (h : n ≤ payloads.length) : storesAt c (payloads ++ more) n = storesAt c payloads n := by
  apply List.map_congr_left
  intro j hj
  have hle : j ≤ payloads.length := by
    have := List.mem_range.mp hj
    omega
  rw [position_append _ _ hle]

def RingSystem.payloads (s : RingSystem) : List (List UInt8) := s.published.map Record.payload

/-- Where the indices, the views and the records of a system lie. -/
structure Layout (host : Endianness) (capacity : UInt32) (s : RingSystem) : Prop where
  capacity_eq : s.ring.capacity = capacity
  producerSaw_le : s.producerSaw ≤ s.released
  released_le : s.released ≤ s.consumerSaw
  consumerSaw_le : s.consumerSaw ≤ s.payloads.length
  lap : position s.payloads s.payloads.length ≤
    position s.payloads s.producerSaw + capacity.toNat
  producerIndex : s.ring.producerIndex =
    indexAt capacity.toNat (position s.payloads s.payloads.length)
  consumerIndex : s.ring.consumerIndex =
    indexAt capacity.toNat (position s.payloads s.released)
  producerStores : s.producerStores = storesAt capacity.toNat s.payloads s.payloads.length
  consumerStores : s.consumerStores = storesAt capacity.toNat s.payloads s.released
  published : ∀ (j : Nat) (r : Record), s.published[j]? = some r →
    r.index = indexAt capacity.toNat (position s.payloads j)
  holds : Holds host capacity.toNat s.ring.ringBuffer (position s.payloads s.released)
    (s.payloads.drop s.released)
  popped : s.popped = s.payloads.take s.released

/-- The record of a Push past its guard ends within a lap of the producer's view. -/
structure Admitted (capacity : UInt32) (payloads : List (List UInt8)) (producerSaw n : Nat) :
    Prop where
  fits : 4 + n ≤ capacity.toNat
  room : position payloads payloads.length + recordSpace n ≤
    position payloads producerSaw + capacity.toNat

/-- What holds of a Push in each phase; `m` is the ring's memory. -/
def PushOk (host : Endianness) (capacity : UInt32) (m : Memory UInt8)
    (payloads : List (List UInt8)) (producerSaw : Nat) : PushPhase → Prop
  | .idle => True
  | .waiting _ payloadSize recordSize own =>
    own = indexAt capacity.toNat (position payloads payloads.length) ∧
      4 + payloadSize.toNat ≤ capacity.toNat ∧ recordSize.toNat = 4 + payloadSize.toNat
  | .passed _ payloadSize own =>
    own = indexAt capacity.toNat (position payloads payloads.length) ∧
      Admitted capacity payloads producerSaw payloadSize.toNat
  | .copying payload transfer copied =>
    Carries capacity.toNat (position payloads payloads.length) transfer.payloadSize.toNat
        transfer ∧
      Admitted capacity payloads producerSaw transfer.payloadSize.toNat ∧
      copied ≤ transfer.payloadSize.toNat ∧
      Circular.load capacity.toNat m (position payloads payloads.length) (4 + copied) =
        objectBytes host 4 transfer.payloadSize.toNat ++ Memory.slice payload 0 copied
  | .aborted => False

/-- What holds of a Pop in each phase. -/
def PopOk (capacity : UInt32) (payloads : List (List UInt8)) (released consumerSaw : Nat) :
    PopPhase → Prop
  | .idle => True
  | .waiting _ _ own => own = indexAt capacity.toNat (position payloads released)
  | .passed _ _ own =>
    own = indexAt capacity.toNat (position payloads released) ∧ released < consumerSaw
  | .copying msgBuf transfer copied =>
    released < consumerSaw ∧ ∃ payload, payloads[released]? = some payload ∧
      Carries capacity.toNat (position payloads released) payload.length transfer ∧
      copied ≤ payload.length ∧ Memory.slice msgBuf 0 copied = payload.take copied
  | .aborted => False

structure SafeState (host : Endianness) (capacity : UInt32) (s : RingSystem) : Prop where
  layout : Layout host capacity s
  push : PushOk host capacity s.ring.ringBuffer s.payloads s.producerSaw s.push
  pop : PopOk capacity s.payloads s.released s.consumerSaw s.pop

theorem SafeState.initial (host : Endianness) (capacity : UInt32) (ringBuffer : Memory UInt8) :
    SafeState host capacity (RingSystem.initial capacity ringBuffer) where
  layout :=
    { capacity_eq := rfl
      producerSaw_le := Nat.le_refl _
      released_le := Nat.le_refl _
      consumerSaw_le := Nat.le_refl _
      lap := Nat.zero_le _
      producerIndex := (indexAt_zero _).symm
      consumerIndex := (indexAt_zero _).symm
      producerStores := congrArg (fun index => [index]) (indexAt_zero _).symm
      consumerStores := congrArg (fun index => [index]) (indexAt_zero _).symm
      published := by
        intro j r h
        cases h
      holds := trivial
      popped := rfl }
  push := trivial
  pop := trivial

section Layout
variable {host : Endianness} {capacity : UInt32} {s : RingSystem}

/-- The producer is at most a lap ahead of any view at least as fresh as its own. -/
theorem Layout.lap_of_view (h : Layout host capacity s) {i : Nat} (hi : s.producerSaw ≤ i) :
    position s.payloads s.payloads.length ≤ position s.payloads i + capacity.toNat :=
  Nat.le_trans h.lap (Nat.add_le_add_right (position_mono _ hi) _)

/-- Cells written past the published records and within the admitted lap leave the
unreleased records alone. -/
theorem Layout.stored (h : Layout host capacity s) {p : Nat} {xs : List UInt8}
    {m : Memory UInt8} (hstored : Circular.Stored capacity.toNat p xs s.ring.ringBuffer m)
    (hp : position s.payloads s.payloads.length ≤ p)
    (hlap : p + xs.length ≤ position s.payloads s.producerSaw + capacity.toNat)
    (push : PushPhase) :
    Layout host capacity { s with ring := { s.ring with ringBuffer := m }, push } := by
  have hview := position_mono s.payloads h.producerSaw_le
  have hend := position_add_drop s.payloads s.released
  have hholds := holds_stored host hstored _ _ (by omega) (by omega) h.holds
  exact { h with holds := hholds }

theorem Layout.oldest (h : Layout host capacity s) (hlt : s.released < s.consumerSaw) :
    ∃ payload, s.payloads[s.released]? = some payload ∧
      s.payloads.drop s.released = payload :: s.payloads.drop (s.released + 1) ∧
      4 + payload.length ≤ capacity.toNat ∧
      Circular.load capacity.toNat s.ring.ringBuffer (position s.payloads s.released)
        (4 + payload.length) = recordBytes host payload := by
  have hlen : s.released < s.payloads.length := Nat.lt_of_lt_of_le hlt h.consumerSaw_le
  have hget := List.getElem?_eq_getElem hlen
  have hdrop := List.drop_eq_getElem_cons hlen
  refine ⟨s.payloads[s.released], hget, hdrop, ?_, ?_⟩
  · have hsucc := position_succ hget
    have hmono := position_mono s.payloads (j := s.released + 1) hlen
    have hlap := h.lap_of_view h.producerSaw_le
    have hspace := le_recordSpace s.payloads[s.released].length
    omega
  · have hholds := h.holds
    rw [hdrop] at hholds
    exact hholds.1

theorem RingSystem.payloads_append (s : RingSystem) (r : Record) :
    (s.published ++ [r]).map Record.payload = s.payloads ++ [r.payload] := by
  rw [List.map_append]
  rfl

theorem Layout.publish (h : Layout host capacity s) {message : List UInt8}
    (hroom : position s.payloads s.payloads.length + recordSpace message.length ≤
      position s.payloads s.producerSaw + capacity.toNat)
    (hload : Circular.load capacity.toNat s.ring.ringBuffer
      (position s.payloads s.payloads.length) (4 + message.length) = recordBytes host message)
    {next : IndexAsUInt64} (hnext : next = indexAt capacity.toNat
      (position s.payloads s.payloads.length + recordSpace message.length))
    {s' : RingSystem} (hs' : s' = { s with
      ring := { s.ring with producerIndex := next }
      producerStores := s.producerStores ++ [next]
      push := .idle
      published := s.published ++
        [⟨indexAt capacity.toNat (position s.payloads s.payloads.length), message⟩] }) :
    Layout host capacity s' := by
  have hpayloads : s'.payloads = s.payloads ++ [message] := by
    rw [hs']
    exact s.payloads_append _
  have hreleased := Nat.le_trans h.released_le h.consumerSaw_le
  have hsaw := Nat.le_trans h.producerSaw_le hreleased
  have hlen : (s.payloads ++ [message]).length = s.payloads.length + 1 := by simp
  have hend : position (s.payloads ++ [message]) (s.payloads.length + 1) =
      position s.payloads s.payloads.length + recordSpace message.length := by
    have hlast : (s.payloads ++ [message])[s.payloads.length]? = some message := by simp
    rw [position_succ hlast, position_append _ _ (Nat.le_refl _)]
  have hrecord := (holds_append host capacity.toNat s.ring.ringBuffer
    (s.payloads.drop s.released) message (position s.payloads s.released)).mpr
    ⟨h.holds, by rw [position_add_drop, hload]⟩
  constructor
  all_goals try simp only [hpayloads, hlen]
  all_goals simp only [hs']
  · exact h.capacity_eq
  · exact h.producerSaw_le
  · exact h.released_le
  · exact Nat.le_succ_of_le h.consumerSaw_le
  · rw [hend, position_append _ _ hsaw]
    exact hroom
  · rw [hend, hnext]
  · rw [position_append _ _ hreleased]
    exact h.consumerIndex
  · rw [storesAt_succ, storesAt_append _ _ _ (Nat.le_refl _), hend, h.producerStores, hnext]
  · rw [storesAt_append _ _ _ hreleased]
    exact h.consumerStores
  · intro j r hget
    have hcount : s.published.length = s.payloads.length := by simp [RingSystem.payloads]
    rcases Nat.lt_or_ge j s.published.length with hj | hj
    · rw [List.getElem?_append_left hj] at hget
      rw [position_append _ _ (by omega)]
      exact h.published j r hget
    · rw [List.getElem?_append_right hj, List.getElem?_singleton] at hget
      split at hget
      · obtain rfl : j = s.payloads.length := by omega
        rw [position_append _ _ (Nat.le_refl _), ← Option.some.inj hget]
      · cases hget
  · rw [position_append _ _ hreleased, List.drop_append_of_le_length hreleased]
    exact hrecord
  · rw [List.take_append_of_le_length hreleased]
    exact h.popped

theorem popOk_append (more : List (List UInt8)) {payloads : List (List UInt8)} {released consumerSaw : Nat}
    {phase : PopPhase} (hsaw : released ≤ payloads.length)
    (hpop : PopOk capacity payloads released consumerSaw phase) :
    PopOk capacity (payloads ++ more) released consumerSaw phase := by
  cases phase with
  | idle => trivial
  | aborted => exact hpop
  | waiting _ _ _ =>
    unfold PopOk
    rw [position_append _ _ hsaw]
    exact hpop
  | passed _ _ _ =>
    unfold PopOk
    rw [position_append _ _ hsaw]
    exact hpop
  | copying _ _ _ =>
    unfold PopOk
    rw [position_append _ _ hsaw]
    obtain ⟨hlt, payload, hget, hrest⟩ := hpop
    obtain ⟨hlen, _⟩ := List.getElem?_eq_some_iff.mp hget
    exact ⟨hlt, payload, by rw [List.getElem?_append_left hlen, hget], hrest⟩

theorem Layout.oldest_record (h : Layout host capacity s) (hlt : s.released < s.consumerSaw) :
    ∃ r, (s.published.drop s.released).head? = some r ∧
      r.index = indexAt capacity.toNat (position s.payloads s.released) ∧
      4 + r.payload.length ≤ capacity.toNat ∧
      Circular.load capacity.toNat s.ring.ringBuffer (position s.payloads s.released)
        (4 + r.payload.length) = recordBytes host r.payload := by
  obtain ⟨payload, hget, _, hfits, hload⟩ := h.oldest hlt
  obtain ⟨r, hr, rfl⟩ : ∃ r, s.published[s.released]? = some r ∧ r.payload = payload := by
    simpa [RingSystem.payloads] using hget
  exact ⟨r, by rw [List.head?_drop, hr], h.published _ _ hr, hfits, hload⟩

end Layout

/-! One lemma for each turn. -/

section Turns
variable {host : Endianness} {capacity : UInt32} (h4 : capacity.toNat % 4 = 0)
variable {s s' : RingSystem} (h : SafeState host capacity s)
include h

theorem safe_beginPush {payload : Memory UInt8} {payloadSize : UInt64}
    (hturn : s.beginPush payload payloadSize = some s') : SafeState host capacity s' := by
  unfold RingSystem.beginPush at hturn
  split at hturn
  · rcases Nat.lt_or_ge capacity.toNat (4 + payloadSize.toNat) with hbig | hfit
    · rw [h.layout.capacity_eq, SPSCRingBuffer.checkedRecordSize_rejects hbig] at hturn
      obtain rfl := Option.some.inj hturn
      exact h
    · obtain ⟨recordSize, hok, hsize⟩ := SPSCRingBuffer.checkedRecordSize_fits hfit
      rw [h.layout.capacity_eq, hok] at hturn
      obtain rfl := Option.some.inj hturn
      exact ⟨{ h.layout with }, ⟨h.layout.producerIndex, hfit, hsize⟩, h.pop⟩
  · cases hturn

include h4 in
theorem safe_loadConsumerIndex {i : Nat} (hturn : s.loadConsumerIndex i = some s') :
    SafeState host capacity s' := by
  unfold RingSystem.loadConsumerIndex at hturn
  split at hturn
  · rename_i payload payloadSize recordSize own consumerIndex hpush hstore
    have hok := h.push
    rw [hpush] at hok
    obtain ⟨hown, hfit, hsize⟩ := hok
    rw [h.layout.consumerStores] at hstore
    obtain ⟨hi, hindex⟩ := storesAt_get hstore
    split at hturn
    · rename_i hsaw
      have hpos : 0 < capacity.toNat := by omega
      have hlap := h.layout.lap_of_view hsaw
      have hle : i ≤ s.payloads.length :=
        Nat.le_trans hi (Nat.le_trans h.layout.released_le h.layout.consumerSaw_le)
      have hmono := position_mono s.payloads hle
      obtain ⟨k, hk⟩ := Nat.exists_eq_add_of_le hmono
      have hloop := pushLoopBreaks_indexAt capacity.toNat_lt hpos
        (q := position s.payloads i) (k := k) (by omega) Unit rfl recordSize
      rw [← hk, ← hown, ← hindex, hsize] at hloop
      rw [h.layout.capacity_eq, hloop] at hturn
      have hlayout : Layout host capacity { s with producerSaw := i } :=
        { h.layout with producerSaw_le := hi, lap := hlap }
      by_cases hguard : 4 + payloadSize.toNat + k ≤ capacity.toNat
      · rw [decide_eq_true hguard] at hturn
        obtain rfl := Option.some.inj hturn
        have hmod := position_mod s.payloads s.payloads.length
        have hmod' := position_mod s.payloads i
        have hspace := (recordSpace_le_iff (n := payloadSize.toNat)
          (b := capacity.toNat - k) (by omega)).mpr (by omega)
        have hadmitted : Admitted capacity s.payloads i payloadSize.toNat := ⟨hfit, by omega⟩
        exact ⟨{ hlayout with }, ⟨hown, hadmitted⟩, h.pop⟩
      · rw [decide_eq_false hguard] at hturn
        obtain rfl := Option.some.inj hturn
        refine ⟨hlayout, ?_, h.pop⟩
        change PushOk host capacity s.ring.ringBuffer s.payloads i s.push
        rw [hpush]
        exact ⟨hown, hfit, hsize⟩
    · cases hturn
  · cases hturn

include h4 in
theorem safe_storeHeader (hturn : s.storeHeader host = some s') : SafeState host capacity s' := by
  unfold RingSystem.storeHeader at hturn
  split at hturn
  · rename_i payload payloadSize own hpush
    have hok := h.push
    rw [hpush] at hok
    obtain ⟨hown, hfits, hroom⟩ := hok
    have hc := capacity.toNat_lt
    have hn : payloadSize.toUInt32.toNat = payloadSize.toNat := by
      rw [UInt64.toNat_toUInt32]
      exact Nat.mod_eq_of_lt (by omega)
    have hp := position_mod s.payloads s.payloads.length
    obtain ⟨transfer, hstart, hcarries⟩ :=
      Transfer.start_indexAt h4 hp (hn.symm ▸ hfits)
    rw [h.layout.capacity_eq, hown, hstart] at hturn
    obtain rfl := Option.some.inj hturn
    have hstored : Circular.Stored capacity.toNat (position s.payloads s.payloads.length)
        (objectBytes host 4 payloadSize.toNat) s.ring.ringBuffer
        (SPSCRingBuffer.writeHeader host s.ring.ringBuffer
          (indexAt capacity.toNat (position s.payloads s.payloads.length))
          payloadSize.toUInt32) := by
      unfold SPSCRingBuffer.writeHeader
      rw [indexAt_value hc (by omega), hn]
      have hoffset := (⟨h4, hp, hfits, rfl, rfl⟩ : PayloadSplit capacity.toNat
        (position s.payloads s.payloads.length) payloadSize.toNat _ _).offset_le
      have hfirst : position s.payloads s.payloads.length % capacity.toNat +
          (objectBytes host 4 payloadSize.toNat).length ≤ capacity.toNat := by
        rw [objectBytes_length]
        exact hoffset
      simpa using Circular.stored_memcpy (0 : UInt8) s.ring.ringBuffer hfirst
    generalize SPSCRingBuffer.writeHeader host s.ring.ringBuffer _ _ = m at hstored ⊢
    have hspace := le_recordSpace payloadSize.toNat
    have hload := hstored.load_same
    rw [objectBytes_length] at hload
    have hpush : PushOk host capacity m s.payloads s.producerSaw (.copying payload transfer 0) := by
      refine ⟨hcarries.size ▸ hcarries, ?_, Nat.zero_le _, ?_⟩
      · rw [hcarries.size, hn]
        exact ⟨hfits, hroom⟩
      · rw [hcarries.size, hn, Memory.slice_zero, List.append_nil]
        exact hload
    exact ⟨h.layout.stored hstored (Nat.le_refl _) (by rw [objectBytes_length]; omega) _,
      hpush, h.pop⟩
  · cases hturn

theorem safe_storeByte (hturn : s.storeByte = some s') : SafeState host capacity s' := by
  unfold RingSystem.storeByte at hturn
  split at hturn
  · rename_i payload transfer copied hpush
    have hok := h.push
    rw [hpush] at hok
    obtain ⟨hcarries, ⟨hfits, hroom⟩, _, hload⟩ := hok
    split at hturn
    · rename_i hless
      obtain rfl := Option.some.inj hturn
      rw [hcarries.address copied hless]
      have hstored := Circular.stored_update capacity.toNat
        (position s.payloads s.payloads.length + (4 + copied)) s.ring.ringBuffer (payload copied)
      generalize Function.update s.ring.ringBuffer _ _ = m at hstored ⊢
      have hspace := le_recordSpace transfer.payloadSize.toNat
      have hbefore := hstored.load_disjoint (q := position s.payloads s.payloads.length)
        (n := 4 + copied) (Nat.le_refl _) (by simp; omega)
      have hsame := hstored.load_same
      have hpush : PushOk host capacity m s.payloads s.producerSaw
          (.copying payload transfer (copied + 1)) := by
        refine ⟨hcarries, ⟨hfits, hroom⟩, hless, ?_⟩
        rw [← Nat.add_assoc 4 copied 1, Circular.load_add, hbefore, hload, Memory.slice_add,
          List.append_assoc, Nat.zero_add]
        exact congrArg _ (congrArg _ hsame)
      exact ⟨h.layout.stored hstored (by omega) (by simp; omega) _, hpush, h.pop⟩
    · cases hturn
  · cases hturn

theorem safe_publishRecord (hturn : s.publishRecord = some s') : SafeState host capacity s' := by
  unfold RingSystem.publishRecord at hturn
  split at hturn
  · rename_i payload transfer copied hpush
    have hok := h.push
    rw [hpush] at hok
    obtain ⟨hcarries, ⟨hfits, hroom⟩, _, hload⟩ := hok
    split at hturn
    · rename_i hall
      obtain rfl := Option.some.inj hturn
      subst copied
      have hsize : (Memory.slice payload 0 transfer.payloadSize.toNat).length =
          transfer.payloadSize.toNat := Memory.slice_length _ _ _
      have hindex := hcarries.index
      have hnext := hcarries.next
      generalize Memory.slice payload 0 transfer.payloadSize.toNat = message at hsize hload ⊢
      rw [← hsize] at hroom hnext
      have hpop := popOk_append [message]
        (Nat.le_trans h.layout.released_le h.layout.consumerSaw_le) h.pop
      rw [← s.payloads_append ⟨transfer.index, message⟩] at hpop
      refine ⟨?_, trivial, hpop⟩
      rw [hindex]
      exact h.layout.publish hroom (by rw [hsize, hload, recordBytes, hsize]) hnext rfl
    · cases hturn
  · cases hturn

theorem safe_beginPop {msgBuf : Memory UInt8} {msgBufCapacity : UInt64}
    (hturn : s.beginPop msgBuf msgBufCapacity = some s') : SafeState host capacity s' := by
  unfold RingSystem.beginPop at hturn
  split at hturn
  · obtain rfl := Option.some.inj hturn
    exact ⟨{ h.layout with }, h.push, h.layout.consumerIndex⟩
  · cases hturn

theorem safe_loadProducerIndex {i : Nat} (hturn : s.loadProducerIndex i = some s') :
    SafeState host capacity s' := by
  unfold RingSystem.loadProducerIndex at hturn
  split at hturn
  · rename_i msgBuf msgBufCapacity own producerIndex hpop hstore
    have hok := h.pop
    rw [hpop] at hok
    have hown : own = indexAt capacity.toNat (position s.payloads s.released) := hok
    rw [h.layout.producerStores] at hstore
    obtain ⟨hi, hindex⟩ := storesAt_get hstore
    split at hturn
    · rename_i hsaw
      have hreleased := Nat.le_trans h.layout.released_le hsaw
      have hlayout : Layout host capacity { s with consumerSaw := i } :=
        { h.layout with released_le := hreleased, consumerSaw_le := hi }
      split at hturn
      · obtain rfl := Option.some.inj hturn
        refine ⟨hlayout, h.push, ?_⟩
        change PopOk capacity s.payloads s.released i s.pop
        rw [hpop]
        exact hown
      · rename_i hne
        obtain rfl := Option.some.inj hturn
        have hlt : s.released < i := by
          rcases Nat.lt_or_eq_of_le hreleased with hlt | heq
          · exact hlt
          · exact absurd (by rw [hown, hindex, heq]) hne
        exact ⟨{ hlayout with }, h.push, ⟨hown, hlt⟩⟩
    · cases hturn
  · cases hturn

include h4 in
theorem safe_loadHeader (hturn : s.loadHeader host = some s') : SafeState host capacity s' := by
  unfold RingSystem.loadHeader at hturn
  split at hturn
  · rename_i msgBuf msgBufCapacity own hpop
    have hok := h.pop
    rw [hpop] at hok
    obtain ⟨hown, hlt⟩ := hok
    obtain ⟨payload, hget, _, hfits, hload⟩ := h.layout.oldest hlt
    have hposition := position_mod s.payloads s.released
    have hvalue : own.value.toNat = position s.payloads s.released % capacity.toNat := by
      rw [hown, indexAt_value capacity.toNat_lt (by omega)]
    have hheader := readHeader_of_load host hload ⟨h4, hposition, hfits, rfl, rfl⟩
      capacity.toNat_lt hvalue
    simp only at hturn
    split at hturn
    · obtain rfl := Option.some.inj hturn
      exact ⟨{ h.layout with }, h.push, trivial⟩
    · obtain ⟨transfer, hstart, hcarries⟩ :=
        Transfer.start_indexAt h4 hposition (hheader.symm ▸ hfits)
      rw [← hown, ← h.layout.capacity_eq] at hstart
      rw [hstart] at hturn
      obtain rfl := Option.some.inj hturn
      rw [hheader] at hcarries
      exact ⟨{ h.layout with }, h.push, hlt, payload, hget, hcarries, Nat.zero_le _, rfl⟩
  · cases hturn

theorem safe_loadByte (hturn : s.loadByte = some s') : SafeState host capacity s' := by
  unfold RingSystem.loadByte at hturn
  split at hturn
  · rename_i msgBuf transfer copied hpop
    have hok := h.pop
    rw [hpop] at hok
    obtain ⟨hlt, payload, hget, hcarries, _, hslice⟩ := hok
    split at hturn
    · rename_i hless
      rw [hcarries.size] at hless
      obtain rfl := Option.some.inj hturn
      obtain ⟨payload', hget', _, _, hload⟩ := h.layout.oldest hlt
      obtain rfl : payload' = payload := Option.some.inj (hget'.symm.trans hget)
      have hbyte := load_record_byte host hload (k := 4 + copied) (by omega)
      rw [recordBytes_payload, ← hcarries.address copied hless] at hbyte
      have hslice' : Memory.slice (Function.update msgBuf copied
          (s.ring.ringBuffer (transfer.address copied))) 0 (copied + 1) =
          payload'.take (copied + 1) := by
        have hbefore : Memory.slice (Function.update msgBuf copied
            (s.ring.ringBuffer (transfer.address copied))) 0 copied =
            Memory.slice msgBuf 0 copied :=
          Memory.slice_congr fun i hi => Function.update_of_ne (by omega) _ _
        rw [Memory.slice_add, hbefore, hslice, List.take_add_one, ← hbyte]
        simp [Memory.slice]
      exact ⟨{ h.layout with }, h.push, hlt, payload', hget, hcarries, hless, hslice'⟩
    · cases hturn
  · cases hturn

theorem safe_releaseRecord (hturn : s.releaseRecord = some s') : SafeState host capacity s' := by
  unfold RingSystem.releaseRecord at hturn
  split at hturn
  · rename_i msgBuf transfer copied hpop
    have hok := h.pop
    rw [hpop] at hok
    obtain ⟨hlt, payload, hget, hcarries, _, hslice⟩ := hok
    split at hturn
    · rename_i hall
      rw [hcarries.size] at hall
      subst copied
      obtain rfl := Option.some.inj hturn
      obtain ⟨payload', hget', hdrop, _, _⟩ := h.layout.oldest hlt
      obtain rfl : payload' = payload := Option.some.inj (hget'.symm.trans hget)
      have hnext := hcarries.next
      rw [← position_succ hget] at hnext
      have hholds := h.layout.holds
      rw [hdrop] at hholds
      have hlayout : Layout host capacity { s with
          ring := { s.ring with consumerIndex := transfer.next }
          consumerStores := s.consumerStores ++ [transfer.next]
          pop := .idle
          released := s.released + 1
          popped := s.popped ++ [Memory.slice msgBuf 0 payload'.length] } :=
        { h.layout with
          producerSaw_le := Nat.le_succ_of_le h.layout.producerSaw_le
          released_le := hlt
          consumerIndex := hnext
          consumerStores := by
            change s.consumerStores ++ [transfer.next] = storesAt _ s.payloads (s.released + 1)
            rw [storesAt_succ, hnext, h.layout.consumerStores]
          holds := by
            change Holds host capacity.toNat s.ring.ringBuffer
              (position s.payloads (s.released + 1)) (s.payloads.drop (s.released + 1))
            rw [position_succ hget]
            exact hholds.2
          popped := by
            change s.popped ++ [Memory.slice msgBuf 0 payload'.length] =
              s.payloads.take (s.released + 1)
            rw [hslice, List.take_length, h.layout.popped, List.take_add_one, hget]
            rfl }
      exact ⟨hlayout, h.push, trivial⟩
    · cases hturn
  · cases hturn

include h4 in
theorem safe_turn {t : Turn} (hturn : RingSystem.Turns host s t s') :
    SafeState host capacity s' := by
  cases t with
  | beginPush payload payloadSize => exact safe_beginPush h hturn
  | loadConsumerIndex i => exact safe_loadConsumerIndex h4 h hturn
  | storeHeader => exact safe_storeHeader h4 h hturn
  | storeByte => exact safe_storeByte h hturn
  | publishRecord => exact safe_publishRecord h hturn
  | beginPop msgBuf msgBufCapacity => exact safe_beginPop h hturn
  | loadProducerIndex i => exact safe_loadProducerIndex h hturn
  | loadHeader => exact safe_loadHeader h4 h hturn
  | loadByte => exact safe_loadByte h hturn
  | releaseRecord => exact safe_releaseRecord h hturn

end Turns

/-! What the invariant says about records in memory. -/

section Records
variable {host : Endianness} {capacity : UInt32} {s : RingSystem}

theorem SafeState.of_run (h4 : capacity.toNat % 4 = 0) {ringBuffer : Memory UInt8}
    {turns : List Turn}
    (hrun : Run (RingSystem.Turns host) (RingSystem.initial capacity ringBuffer) turns s) :
    SafeState host capacity s :=
  hrun.invariant (SafeState.initial host capacity ringBuffer) fun _ _ _ h => safe_turn h4 h

theorem SafeState.pending_admitted (h : SafeState host capacity s) {index : IndexAsUInt64}
    {payloadSize : UInt32} (hpending : s.pending = some (index, payloadSize)) :
    index = indexAt capacity.toNat (position s.payloads s.payloads.length) ∧
      Admitted capacity s.payloads s.producerSaw payloadSize.toNat := by
  have hok := h.push
  unfold RingSystem.pending at hpending
  split at hpending
  · rename_i payload size own hpush
    obtain ⟨rfl, rfl⟩ := Prod.mk.inj (Option.some.inj hpending)
    rw [hpush] at hok
    obtain ⟨hown, hadmitted⟩ := hok
    have hfits := hadmitted.fits
    have hc := capacity.toNat_lt
    have hn : size.toUInt32.toNat = size.toNat := by
      rw [UInt64.toNat_toUInt32]
      exact Nat.mod_eq_of_lt (by omega)
    exact ⟨hown, hn.symm ▸ hadmitted⟩
  · rename_i payload transfer copied hpush
    obtain ⟨rfl, rfl⟩ := Prod.mk.inj (Option.some.inj hpending)
    rw [hpush] at hok
    exact ⟨hok.1.index, hok.2.1⟩
  · cases hpending

/-- An unreleased record lies between the released ones and the producer. -/
theorem Layout.unreleased (h : Layout host capacity s) {r : Record}
    (hr : r ∈ s.published.drop s.released) :
    ∃ p, p % 4 = 0 ∧ r.index = indexAt capacity.toNat p ∧ 4 + r.payload.length ≤ capacity.toNat ∧
      position s.payloads s.released ≤ p ∧
      p + recordSpace r.payload.length ≤ position s.payloads s.payloads.length := by
  obtain ⟨i, hi⟩ := List.mem_iff_getElem?.mp hr
  rw [List.getElem?_drop] at hi
  have hget : s.payloads[s.released + i]? = some r.payload := by
    simp [RingSystem.payloads, hi]
  obtain ⟨hlen, _⟩ := List.getElem?_eq_some_iff.mp hget
  have hsucc := position_succ hget
  have hmono := position_mono s.payloads (j := s.released + i + 1) hlen
  have hfrom := position_mono s.payloads (show s.released ≤ s.released + i by omega)
  have hlap := h.lap_of_view h.producerSaw_le
  have hspace := le_recordSpace r.payload.length
  exact ⟨position s.payloads (s.released + i), position_mod _ _, h.published _ _ hi, by omega,
    hfrom, by omega⟩

theorem SafeState.disjoint (h4 : capacity.toNat % 4 = 0) (h : SafeState host capacity s)
    {index : IndexAsUInt64} {payloadSize : UInt32}
    (hpending : s.pending = some (index, payloadSize)) {r : Record}
    (hr : r ∈ s.published.drop s.released) {a : Nat}
    (ha : InRecord capacity index payloadSize.toNat a) :
    ¬ InRecord capacity r.index r.payload.length a := by
  obtain ⟨hindex, hfits, hroom⟩ := h.pending_admitted hpending
  obtain ⟨p, hp, hrindex, hrfits, hfrom, hto⟩ := h.layout.unreleased hr
  have hsaw := position_mono s.payloads h.layout.producerSaw_le
  rw [hindex, inRecord_iff h4 (position_mod _ _) hfits] at ha
  rw [hrindex, inRecord_iff h4 hp hrfits]
  obtain ⟨k, hk, rfl⟩ := ha
  rintro ⟨j, hj, heq⟩
  exact Circular.slot_ne (i := p + j) (j := position s.payloads s.payloads.length + k)
    (by omega) (by omega) heq

theorem Carries.address_inRecord (h4 : capacity.toNat % 4 = 0) {p n : Nat} {t : Transfer}
    (h : Carries capacity.toNat p n t) (hp : p % 4 = 0) (hfit : 4 + n ≤ capacity.toNat) {k : Nat}
    (hk : k < n) : InRecord capacity t.index n (t.address k) := by
  have hspace := le_recordSpace n
  rw [h.index, inRecord_iff h4 hp hfit, h.address k hk]
  exact ⟨4 + k, by omega, rfl⟩

end Records

/-- Whatever the order of the turns and however late the views: no assert fails, a
pending Push writes inside its record and outside every unreleased one, Pops return
the published payloads in order, and a Pop reads only bytes of the oldest unreleased
record, each with the value that was pushed. -/
theorem interleavings_are_safe (host : Endianness) {capacity : UInt32}
    (h4 : capacity.toNat % 4 = 0) (ringBuffer : Memory UInt8) {turns : List Turn}
    {s : RingSystem}
    (hrun : Run (RingSystem.Turns host) (RingSystem.initial capacity ringBuffer) turns s) :
    (s.push ≠ .aborted ∧ s.pop ≠ .aborted) ∧
    (∀ index payloadSize, s.pending = some (index, payloadSize) →
      ∀ a, InRecord capacity index payloadSize.toNat a → a < capacity.toNat ∧
        ∀ r ∈ s.published.drop s.released, ¬ InRecord capacity r.index r.payload.length a) ∧
    (∀ payload transfer copied, s.push = .copying payload transfer copied →
      ∀ k < transfer.payloadSize.toNat,
        InRecord capacity transfer.index transfer.payloadSize.toNat (transfer.address k)) ∧
    s.popped = (s.published.map Record.payload).take s.released ∧
    (∀ msgBuf msgBufCapacity own, s.pop = .passed msgBuf msgBufCapacity own →
      ∃ r, (s.published.drop s.released).head? = some r ∧ own = r.index ∧
        (SPSCRingBuffer.readHeader host s.ring.ringBuffer own).toNat = r.payload.length) ∧
    ∀ msgBuf transfer copied, s.pop = .copying msgBuf transfer copied →
      ∃ r, (s.published.drop s.released).head? = some r ∧ transfer.index = r.index ∧
        transfer.payloadSize.toNat = r.payload.length ∧
        Memory.slice msgBuf 0 copied = r.payload.take copied ∧
        ∀ k < transfer.payloadSize.toNat,
          InRecord capacity r.index r.payload.length (transfer.address k) := by
  have h := SafeState.of_run h4 hrun
  refine ⟨⟨?_, ?_⟩, ?_, ?_, h.layout.popped, ?_, ?_⟩
  · intro habort
    have hok := h.push
    rw [habort] at hok
    exact hok
  · intro habort
    have hok := h.pop
    rw [habort] at hok
    exact hok
  · intro index payloadSize hpending a ha
    refine ⟨?_, fun r hr => h.disjoint h4 hpending hr ha⟩
    obtain ⟨hindex, hfits, _⟩ := h.pending_admitted hpending
    rw [hindex, inRecord_iff h4 (position_mod _ _) hfits] at ha
    obtain ⟨k, _, rfl⟩ := ha
    exact Nat.mod_lt _ (by omega)
  · intro payload transfer copied hpush k hk
    have hok := h.push
    rw [hpush] at hok
    exact hok.1.address_inRecord h4 (position_mod _ _) hok.2.1.fits hk
  · intro msgBuf msgBufCapacity own hpop
    have hok := h.pop
    rw [hpop] at hok
    obtain ⟨hown, hlt⟩ := hok
    obtain ⟨r, hr, hindex, hfits, hload⟩ := h.layout.oldest_record hlt
    have hvalue : own.value.toNat = position s.payloads s.released % capacity.toNat := by
      rw [hown, indexAt_value capacity.toNat_lt (by omega)]
    exact ⟨r, hr, hown.trans hindex.symm, readHeader_of_load host hload
      ⟨h4, position_mod _ _, hfits, rfl, rfl⟩ capacity.toNat_lt hvalue⟩
  · intro msgBuf transfer copied hpop
    have hok := h.pop
    rw [hpop] at hok
    obtain ⟨hlt, payload, hget, hcarries, _, hslice⟩ := hok
    obtain ⟨r, hr, hindex, hfits, _⟩ := h.layout.oldest_record hlt
    obtain rfl : payload = r.payload := by
      rw [List.head?_drop] at hr
      simpa [RingSystem.payloads, hr, eq_comm] using hget
    refine ⟨r, hr, hcarries.index.trans hindex.symm, hcarries.size, hslice, ?_⟩
    intro k hk
    rw [hcarries.size] at hk
    have hin := hcarries.address_inRecord h4 (position_mod _ _) hfits hk
    rwa [hcarries.index, ← hindex] at hin

/-- A wrapped record being copied while the view of the consumer is out of date. -/
def sampleTurns : List Turn :=
  [.beginPush (bytesAt [1, 2]) 2, .loadConsumerIndex 0, .storeHeader, .storeByte, .storeByte,
    .publishRecord, .beginPop (bytesAt []) 8, .beginPush (bytesAt [3, 4, 5, 6, 7, 8]) 6,
    .loadProducerIndex 0, .loadProducerIndex 1, .loadHeader, .loadConsumerIndex 0, .loadByte,
    .storeHeader, .storeByte, .loadByte, .storeByte, .releaseRecord, .storeByte]

theorem interleavings_are_safe_sample :
    ∃ s, Run (RingSystem.Turns .kLittle) (RingSystem.initial 20 (bytesAt [])) sampleTurns s ∧
      s.pending = some (⟨8, 0⟩, 6) ∧ s.popped = [[1, 2]] ∧ s.push ≠ .aborted := by
  have hrun : Run (RingSystem.Turns .kLittle) (RingSystem.initial 20 (bytesAt [])) sampleTurns _ :=
    Run.of_foldlM rfl
  exact ⟨_, hrun, rfl, rfl, (interleavings_are_safe .kLittle (by decide) (bytesAt []) hrun).1.1⟩

end IpcChecker
