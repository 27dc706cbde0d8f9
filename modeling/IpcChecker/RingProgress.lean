import IpcChecker.RingSafety

/-!
# The consumer alone empties the ring

From any state of the interleaved system the turns of the consumer, without any of
the producer's, take out every published payload that is left. A Pop that is in
progress is finished first, whatever its buffer holds.
-/

namespace IpcChecker
open Shared
set_option autoImplicit false

/-- Whether a turn is one of the consumer's. -/
def Turn.isPop : Turn → Bool
  | .beginPop _ _ | .loadProducerIndex _ | .loadHeader | .loadByte | .releaseRecord => true
  | _ => false

namespace RingSystem

/-- The consumer alone can go from `s` to `s'`, releasing `n` records on the way. -/
def PopsAlone (host : Endianness) (s : RingSystem) (n : Nat) (s' : RingSystem) : Prop :=
  ∃ turns, (∀ t ∈ turns, t.isPop = true) ∧ Run (Turns host) s turns s' ∧
    s'.published = s.published ∧ s'.released = s.released + n

namespace PopsAlone
variable {host : Endianness} {s t u : RingSystem} {m n : Nat}

theorem refl : PopsAlone host s 0 s :=
  ⟨[], fun _ hmem => absurd hmem List.not_mem_nil, .start, rfl, rfl⟩

theorem single {p : Turn} (hpop : p.isPop = true) (hturn : s.turn host p = some t)
    (hpublished : t.published = s.published) (hreleased : t.released = s.released + n) :
    PopsAlone host s n t :=
  ⟨[p], fun q hmem => by rwa [List.mem_singleton.mp hmem], Run.single hturn, hpublished,
    hreleased⟩

theorem trans (h : PopsAlone host s m t) (h' : PopsAlone host t n u) :
    PopsAlone host s (m + n) u := by
  obtain ⟨turns, hpop, hrun, hpublished, hreleased⟩ := h
  obtain ⟨turns', hpop', hrun', hpublished', hreleased'⟩ := h'
  refine ⟨turns ++ turns', fun p hmem => ?_, hrun.trans hrun', hpublished'.trans hpublished, ?_⟩
  · rcases List.mem_append.mp hmem with hfirst | hsecond
    · exact hpop p hfirst
    · exact hpop' p hsecond
  · rw [hreleased', hreleased, Nat.add_assoc]

theorem safe {capacity : UInt32} (h4 : capacity.toNat % 4 = 0) (h : PopsAlone host s n t)
    (hs : SafeState host capacity s) : SafeState host capacity t := by
  obtain ⟨_, _, hrun, _⟩ := h
  exact hrun.invariant hs fun _ _ _ hsafe => safe_turn h4 hsafe

theorem payloads_eq (h : PopsAlone host s n t) : t.payloads = s.payloads := by
  obtain ⟨_, _, _, hpublished, _⟩ := h
  unfold payloads
  rw [hpublished]

theorem released_eq (h : PopsAlone host s n t) : t.released = s.released + n := by
  obtain ⟨_, _, _, _, hreleased⟩ := h
  exact hreleased

end PopsAlone
end RingSystem

section Progress
variable {host : Endianness} {capacity : UInt32} (h4 : capacity.toNat % 4 = 0)
variable {s : RingSystem}
include h4

theorem SafeState.copying_releases (h : SafeState host capacity s) {msgBuf : Memory UInt8}
    {transfer : Transfer} {copied : Nat} (hpop : s.pop = .copying msgBuf transfer copied) :
    ∃ s', RingSystem.PopsAlone host s 1 s' := by
  induction hn : transfer.payloadSize.toNat - copied generalizing s msgBuf copied with
  | zero =>
    have hok := h.pop
    rw [hpop] at hok
    obtain ⟨_, payload, _, hcarries, hle, _⟩ := hok
    have hall : copied = transfer.payloadSize.toNat := by
      rw [← hcarries.size] at hle
      omega
    have hturn : s.turn host .releaseRecord = some { s with
        ring := { s.ring with consumerIndex := transfer.next }
        consumerStores := s.consumerStores ++ [transfer.next]
        pop := .idle
        released := s.released + 1
        popped := s.popped ++ [Memory.slice msgBuf 0 copied] } := by
      simp only [RingSystem.turn, RingSystem.releaseRecord, hpop, if_pos hall]
    exact ⟨_, .single rfl hturn rfl rfl⟩
  | succ n ih =>
    have hturn : s.turn host .loadByte = some { s with
        pop := .copying
          (Function.update msgBuf copied (s.ring.ringBuffer (transfer.address copied)))
          transfer (copied + 1) } := by
      simp only [RingSystem.turn, RingSystem.loadByte, hpop]
      rw [if_pos (by omega)]
    have hstep : RingSystem.PopsAlone host s 0 _ := .single rfl hturn rfl rfl
    obtain ⟨s', hrest⟩ := ih (hstep.safe h4 h) rfl (by omega)
    exact ⟨s', Nat.zero_add 1 ▸ hstep.trans hrest⟩

theorem SafeState.passed_releases (h : SafeState host capacity s) {msgBuf : Memory UInt8}
    {msgBufCapacity : UInt64} {own : IndexAsUInt64}
    (hpop : s.pop = .passed msgBuf msgBufCapacity own)
    (hroom : ¬ (SPSCRingBuffer.readHeader host s.ring.ringBuffer own).toUInt64 >
      msgBufCapacity) : ∃ s', RingSystem.PopsAlone host s 1 s' := by
  cases hstart : Transfer.start own (SPSCRingBuffer.readHeader host s.ring.ringBuffer own)
      s.ring.capacity with
  | ok transfer =>
    have hturn : s.turn host .loadHeader = some { s with pop := .copying msgBuf transfer 0 } := by
      simp only [RingSystem.turn, RingSystem.loadHeader, hpop, if_neg hroom, hstart]
    have hstep : RingSystem.PopsAlone host s 0 _ := .single rfl hturn rfl rfl
    obtain ⟨s', hrest⟩ := (hstep.safe h4 h).copying_releases h4 rfl
    exact ⟨s', Nat.zero_add 1 ▸ hstep.trans hrest⟩
  | error e =>
    have hturn : s.turn host .loadHeader = some { s with pop := .aborted } := by
      simp only [RingSystem.turn, RingSystem.loadHeader, hpop, if_neg hroom, hstart]
    have hstep : RingSystem.PopsAlone host s 0 _ := .single rfl hturn rfl rfl
    exact absurd (hstep.safe h4 h).pop id

/-- A waiting Pop sees the oldest record that is left, once the stores have arrived. -/
theorem SafeState.waiting_passes (h : SafeState host capacity s) {msgBuf : Memory UInt8}
    {msgBufCapacity : UInt64} {own : IndexAsUInt64}
    (hpop : s.pop = .waiting msgBuf msgBufCapacity own)
    (hleft : s.released < s.payloads.length) :
    ∃ s', RingSystem.PopsAlone host s 0 s' ∧ s'.pop = .passed msgBuf msgBufCapacity own ∧
      s'.ring = s.ring := by
  have hok := h.pop
  rw [hpop] at hok
  have hown : own = indexAt capacity.toNat (position s.payloads s.released) := hok
  have hend := position_add_drop s.payloads s.released
  have hlap := h.layout.lap_of_view h.layout.producerSaw_le
  have hspace : unreadSpace (s.payloads.drop s.released) ≠ 0 := by
    intro hzero
    have hnil := (unreadSpace_eq_zero_iff _).mp hzero
    rw [List.drop_eq_nil_iff] at hnil
    omega
  have hstore : s.producerStores[s.payloads.length]? =
      some (indexAt capacity.toNat (position s.payloads s.payloads.length)) := by
    rw [h.layout.producerStores]
    simp [storesAt]
  have hne : own ≠ indexAt capacity.toNat (position s.payloads s.payloads.length) := by
    rw [hown, ← hend]
    exact mt (indexAt_eq_iff capacity.toNat_lt (by omega) (by omega)).mp hspace
  have hturn : s.turn host (.loadProducerIndex s.payloads.length) =
      some { s with consumerSaw := s.payloads.length,
                    pop := .passed msgBuf msgBufCapacity own } := by
    simp only [RingSystem.turn, RingSystem.loadProducerIndex, hpop, hstore,
      if_pos h.layout.consumerSaw_le, if_neg hne]
  exact ⟨_, .single rfl hturn rfl rfl, rfl, rfl⟩

theorem SafeState.header_eq (h : SafeState host capacity s) {msgBuf : Memory UInt8}
    {msgBufCapacity : UInt64} {own : IndexAsUInt64}
    (hpop : s.pop = .passed msgBuf msgBufCapacity own) :
    ∃ payload, s.payloads[s.released]? = some payload ∧
      (SPSCRingBuffer.readHeader host s.ring.ringBuffer own).toNat = payload.length := by
  have hok := h.pop
  rw [hpop] at hok
  obtain ⟨hown, hlt⟩ := hok
  obtain ⟨payload, hget, _, hfits, hload⟩ := h.layout.oldest hlt
  have hvalue : own.value.toNat = position s.payloads s.released % capacity.toNat := by
    rw [hown, indexAt_value capacity.toNat_lt (by omega)]
  exact ⟨payload, hget, readHeader_of_load host hload
    ⟨h4, position_mod _ _, hfits, rfl, rfl⟩ capacity.toNat_lt hvalue⟩

variable {msgBufCapacity : UInt64}

theorem SafeState.waiting_releases (h : SafeState host capacity s) {msgBuf : Memory UInt8}
    {own : IndexAsUInt64} (hpop : s.pop = .waiting msgBuf msgBufCapacity own)
    (hleft : s.released < s.payloads.length)
    (hroom : ∀ m ∈ s.payloads.drop s.released, m.length ≤ msgBufCapacity.toNat) :
    ∃ s', RingSystem.PopsAlone host s 1 s' := by
  obtain ⟨t, hstep, hpassed, hring⟩ := h.waiting_passes h4 hpop hleft
  have ht := hstep.safe h4 h
  obtain ⟨payload, hget, hheader⟩ := ht.header_eq h4 hpassed
  rw [hstep.payloads_eq, hstep.released_eq, Nat.add_zero] at hget
  have hmem : payload ∈ s.payloads.drop s.released :=
    List.mem_of_getElem? (by rw [List.getElem?_drop, Nat.add_zero, hget])
  have hfits : ¬ (SPSCRingBuffer.readHeader host t.ring.ringBuffer own).toUInt64 >
      msgBufCapacity := by
    have hle := hroom payload hmem
    change ¬ msgBufCapacity < _
    rw [UInt64.lt_iff_toNat_lt, UInt32.toNat_toUInt64, hheader]
    omega
  obtain ⟨s', hrest⟩ := ht.passed_releases h4 hpassed hfits
  exact ⟨s', Nat.zero_add 1 ▸ hstep.trans hrest⟩

theorem SafeState.idle_releases (h : SafeState host capacity s) (hpop : s.pop = .idle)
    (hleft : s.released < s.payloads.length)
    (hroom : ∀ m ∈ s.payloads.drop s.released, m.length ≤ msgBufCapacity.toNat) :
    ∃ s', RingSystem.PopsAlone host s 1 s' := by
  have hturn : s.turn host (.beginPop (bytesAt []) msgBufCapacity) =
      some { s with pop := .waiting (bytesAt []) msgBufCapacity s.ring.consumerIndex } := by
    simp only [RingSystem.turn, RingSystem.beginPop, hpop]
  have hstep : RingSystem.PopsAlone host s 0 _ := .single rfl hturn rfl rfl
  obtain ⟨s', hrest⟩ := (hstep.safe h4 h).waiting_releases h4 rfl hleft hroom
  exact ⟨s', Nat.zero_add 1 ▸ hstep.trans hrest⟩

/-- A Pop past its wait either has room and releases, or throws and leaves the next one to do so. -/
theorem SafeState.passed_then_releases (h : SafeState host capacity s) {msgBuf : Memory UInt8}
    {size : UInt64} {own : IndexAsUInt64} (hpop : s.pop = .passed msgBuf size own)
    (hleft : s.released < s.payloads.length)
    (hroom : ∀ m ∈ s.payloads.drop s.released, m.length ≤ msgBufCapacity.toNat) :
    ∃ s', RingSystem.PopsAlone host s 1 s' := by
  by_cases hsmall : (SPSCRingBuffer.readHeader host s.ring.ringBuffer own).toUInt64 > size
  · have hturn : s.turn host .loadHeader = some { s with pop := .idle } := by
      simp only [RingSystem.turn, RingSystem.loadHeader, hpop, if_pos hsmall]
    have hstep : RingSystem.PopsAlone host s 0 _ := .single rfl hturn rfl rfl
    obtain ⟨s', hrest⟩ := (hstep.safe h4 h).idle_releases h4 rfl hleft hroom
    exact ⟨s', Nat.zero_add 1 ▸ hstep.trans hrest⟩
  · exact h.passed_releases h4 hpop hsmall

/-- Whatever the consumer is doing, it can release the oldest payload that is left. -/
theorem SafeState.releases_next (h : SafeState host capacity s)
    (hleft : s.released < s.payloads.length)
    (hroom : ∀ m ∈ s.payloads.drop s.released, m.length ≤ msgBufCapacity.toNat) :
    ∃ s', RingSystem.PopsAlone host s 1 s' := by
  cases hpop : s.pop with
  | idle => exact h.idle_releases h4 hpop hleft hroom
  | waiting msgBuf size own =>
    obtain ⟨t, hstep, hpassed, _⟩ := h.waiting_passes h4 hpop hleft
    have hleft' : t.released < t.payloads.length := by
      rw [hstep.payloads_eq, hstep.released_eq]
      exact hleft
    have hroom' : ∀ m ∈ t.payloads.drop t.released, m.length ≤ msgBufCapacity.toNat := by
      rw [hstep.payloads_eq, hstep.released_eq]
      exact hroom
    obtain ⟨s', hrest⟩ := (hstep.safe h4 h).passed_then_releases h4 hpassed hleft' hroom'
    exact ⟨s', Nat.zero_add 1 ▸ hstep.trans hrest⟩
  | passed msgBuf size own => exact h.passed_then_releases h4 hpop hleft hroom
  | copying msgBuf transfer copied => exact h.copying_releases h4 hpop
  | aborted =>
    have hok := h.pop
    rw [hpop] at hok
    exact absurd hok id

/-- The consumer alone hands out everything that was published. -/
theorem SafeState.drains (h : SafeState host capacity s)
    (hroom : ∀ m ∈ s.payloads.drop s.released, m.length ≤ msgBufCapacity.toNat) :
    ∃ n s', RingSystem.PopsAlone host s n s' ∧ s'.popped = s.payloads := by
  induction hn : s.payloads.length - s.released generalizing s with
  | zero =>
    refine ⟨0, s, .refl, ?_⟩
    rw [h.layout.popped, List.take_of_length_le (by omega)]
  | succ n ih =>
    obtain ⟨t, hstep⟩ := h.releases_next h4 (by omega) hroom
    have hroom' : ∀ m ∈ t.payloads.drop t.released, m.length ≤ msgBufCapacity.toNat := by
      rw [hstep.payloads_eq, hstep.released_eq, ← List.drop_drop]
      exact fun m hmem => hroom m (List.mem_of_mem_drop hmem)
    obtain ⟨k, s', hrest, hpopped⟩ := ih (hstep.safe h4 h) hroom' (by
      rw [hstep.payloads_eq, hstep.released_eq]
      omega)
    exact ⟨1 + k, s', hstep.trans hrest, hpopped.trans hstep.payloads_eq⟩

end Progress
end IpcChecker
