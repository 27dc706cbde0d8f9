import IpcChecker.Startup

/-!
# Start-up loses nothing

The flag is clear in every phase before the ring's constructor has finished, and a
client gets past its wait only while it is set. So all of the constructor's writes
come before the first Push.
-/

namespace IpcChecker
open Shared
set_option autoImplicit false

/-! The invariant. -/

/-- The flag is clear, and the memory is that of a ring nobody has used. -/
structure Untouched (capacity : UInt32) (isInitialized : Bool) (system : RingSystem) : Prop where
  flag : isInitialized = false
  system_eq : system = RingSystem.initial capacity fun _ => 0

/-- The object has its full size, for an aligned capacity. -/
structure Truncated (capacity : UInt32) (objectSize : Option UInt64) : Prop where
  aligned : capacity.toNat % 4 = 0
  size_eq : objectSize = some (SharedMemoryServer.shmemSize capacity)

/-- What holds in each phase of the constructor. -/
def ServerOk (host : Endianness) (objectSize : Option UInt64) (isInitialized : Bool)
    (system : RingSystem) : ServerPhase → Prop
  | .start => objectSize = none ∧ Untouched 0 isInitialized system
  | .opened => objectSize = some 0 ∧ Untouched 0 isInitialized system
  | .aligned capacity =>
    objectSize = some 0 ∧ capacity.toNat % 4 = 0 ∧ Untouched 0 isInitialized system
  | .truncated capacity | .mapped capacity =>
    Truncated capacity objectSize ∧ Untouched 0 isInitialized system
  | .capacitySet capacity | .flagCleared capacity | .producerIndexSet capacity
  | .consumerIndexSet capacity | .constructed capacity =>
    Truncated capacity objectSize ∧ Untouched capacity isInitialized system
  | .ready capacity =>
    Truncated capacity objectSize ∧ isInitialized = true ∧ SafeState host capacity system
  | .failed _ => ∃ capacity, Untouched capacity isInitialized system

/-- Either nobody has used the ring yet or the constructor has returned. -/
theorem ServerOk.untouched_or_ready {host : Endianness} {objectSize : Option UInt64}
    {isInitialized : Bool} {system : RingSystem} {server : ServerPhase}
    (h : ServerOk host objectSize isInitialized system server) :
    (∃ capacity, Untouched capacity isInitialized system) ∨
    ∃ capacity, server = .ready capacity ∧ Truncated capacity objectSize ∧
      isInitialized = true ∧ SafeState host capacity system := by
  cases server with
  | ready capacity => exact Or.inr ⟨capacity, rfl, h⟩
  | failed _ => exact Or.inl h
  | aligned _ => exact Or.inl ⟨_, h.2.2⟩
  | _ => exact Or.inl ⟨_, h.2⟩

/-- What a client in each phase relies on. -/
def ClientOk (hasMembers isInitialized : Bool) : ClientPhase → Prop
  | .disconnected | .opened | .failed (.exception _) => True
  | .sized | .mapped => hasMembers = true
  | .awake | .checked | .connected => hasMembers = true ∧ isInitialized = true
  | .failed .assertion | .faulted => False

def ServerPhase.isReady : ServerPhase → Bool
  | .ready _ => true
  | _ => false

def StartupStep.isSend : StartupStep → Bool
  | .clientTurn _ => true
  | _ => false

structure StartupOk (host : Endianness) (steps : List StartupStep) (s : Startup) : Prop where
  server : ServerOk host s.objectSize s.isInitialized s.system s.server
  client : ClientOk s.hasMembers s.isInitialized s.client
  size : ∀ n, s.objectSize = some n → n = 0 ∨ s.hasMembers = true
  quiet : s.server.isReady = false → ∀ e ∈ steps, e.isSend = false
  sent : ∀ capacity, s.server = .ready capacity →
    s.system.payloads ++ s.system.sending = sentMessages capacity steps

theorem StartupOk.initial (host : Endianness) : StartupOk host [] Startup.initial where
  server := ⟨rfl, ⟨rfl, rfl⟩⟩
  client := trivial
  size := by
    intro n hn
    cases hn
  quiet := by
    intro _ e hmem
    cases hmem
  sent := by
    intro capacity hready
    cases hready

theorem Truncated.hasMembers {capacity : UInt32} {s : Startup}
    (h : Truncated capacity s.objectSize) : s.hasMembers = true := by
  have hsize := SharedMemoryServer.shmemSize_toNat capacity
  unfold Startup.hasMembers
  rw [h.size_eq]
  simp only [decide_eq_true_eq, UInt64.le_iff_toNat_le]
  omega

/-- What a client relies on never goes away. -/
theorem ClientOk.mono {hasMembers hasMembers' isInitialized isInitialized' : Bool}
    (hmembers : hasMembers = true → hasMembers' = true)
    (hflag : isInitialized = true → isInitialized' = true) {client : ClientPhase}
    (h : ClientOk hasMembers isInitialized client) :
    ClientOk hasMembers' isInitialized' client := by
  unfold ClientOk at *
  split at h
  all_goals first | trivial | exact hmembers h | exact ⟨hmembers h.1, hflag h.2⟩

theorem sentMessages_append (capacity : UInt32) (steps : List StartupStep) {e : StartupStep}
    (he : e.isSend = false) :
    sentMessages capacity (steps ++ [e]) = sentMessages capacity steps := by
  unfold sentMessages
  rw [List.filterMap_append]
  cases e with
  | clientTurn t => cases he
  | _ => exact List.append_nil _

theorem sentMessages_of_quiet (capacity : UInt32) {steps : List StartupStep}
    (h : ∀ e ∈ steps, e.isSend = false) : sentMessages capacity steps = [] := by
  unfold sentMessages
  rw [List.filterMap_eq_nil_iff]
  intro e hmem
  have he := h e hmem
  cases e with
  | clientTurn t => cases he
  | _ => rfl

theorem quiet_append {steps : List StartupStep} {e : StartupStep} (he : e.isSend = false)
    (h : ∀ e ∈ steps, e.isSend = false) : ∀ e' ∈ steps ++ [e], e'.isSend = false := by
  intro e' hmem
  rcases List.mem_append.mp hmem with hold | hnew
  · exact h e' hold
  · rw [List.mem_singleton.mp hnew]
    exact he

/-! Steps of the server's constructor. -/

section Construction
variable {host : Endianness} {steps : List StartupStep} {s s' : Startup}
variable (h : StartupOk host steps s)
include h

theorem StartupOk.server_at {server : ServerPhase} (hphase : s.server = server) :
    ServerOk host s.objectSize s.isInitialized s.system server := hphase ▸ h.server

theorem StartupOk.construct {e : StartupStep} (he : e.isSend = false) {before : ServerPhase}
    (hphase : s.server = before) (hbefore : before.isReady = false)
    (hafter : s'.server.isReady = false)
    (hserver : ServerOk host s'.objectSize s'.isInitialized s'.system s'.server)
    (hclient : s'.client = s.client) (hmembers : s.hasMembers = true → s'.hasMembers = true)
    (hflag : s.isInitialized = true → s'.isInitialized = true)
    (hsize : ∀ n, s'.objectSize = some n → n = 0 ∨ s'.hasMembers = true) :
    StartupOk host (steps ++ [e]) s' where
  server := hserver
  client := hclient ▸ h.client.mono hmembers hflag
  size := hsize
  quiet := fun _ => quiet_append he (h.quiet (hphase ▸ hbefore))
  sent := by
    intro capacity hready
    rw [hready] at hafter
    cases hafter

/-- A step before the last one that leaves the object's size and the flag as they are. -/
theorem StartupOk.advance {e : StartupStep} (he : e.isSend = false) {before : ServerPhase}
    (hphase : s.server = before) (hbefore : before.isReady = false) {server : ServerPhase}
    {system : RingSystem} (hafter : server.isReady = false)
    (hserver : ServerOk host s.objectSize s.isInitialized system server) :
    StartupOk host (steps ++ [e]) { s with server, system } :=
  h.construct he hphase hbefore hafter hserver rfl id id h.size

theorem StartupOk.shmOpen {ok : Bool} (hstep : s.shmOpen ok = some s') :
    StartupOk host (steps ++ [.shmOpen ok]) s' := by
  unfold Startup.shmOpen at hstep
  split at hstep
  · rename_i hphase
    obtain ⟨hobject, huntouched⟩ := h.server_at hphase
    split at hstep
    · obtain rfl := Option.some.inj hstep
      exact h.advance rfl hphase rfl rfl ⟨0, huntouched⟩
    · obtain rfl := Option.some.inj hstep
      refine h.construct rfl hphase rfl rfl ⟨rfl, huntouched⟩ rfl ?_ id ?_
      · intro hmembers
        unfold Startup.hasMembers at hmembers
        rw [hobject] at hmembers
        cases hmembers
      · intro n hn
        exact Or.inl (Option.some.inj hn).symm
  · cases hstep

theorem StartupOk.alignCapacity {bufferSize : Option UInt64}
    (hstep : s.alignCapacity bufferSize = some s') :
    StartupOk host (steps ++ [.alignCapacity]) s' := by
  unfold Startup.alignCapacity at hstep
  split at hstep
  · rename_i hphase
    obtain ⟨hobject, huntouched⟩ := h.server_at hphase
    rcases Nat.lt_or_ge ((SharedMemoryServer.requestedCapacity bufferSize).toNat + 3) (2 ^ 32) with
      hfits | hover
    · obtain ⟨capacity, halign, hnat⟩ := SPSCRingBuffer.alignCapacity_fits hfits
      rw [halign] at hstep
      obtain rfl := Option.some.inj hstep
      have h4 : capacity.toNat % 4 = 0 := by
        rw [hnat]
        exact Nat.mul_mod_left _ 4
      exact h.advance rfl hphase rfl rfl ⟨hobject, h4, huntouched⟩
    · rw [SPSCRingBuffer.alignCapacity_overflows hover] at hstep
      obtain rfl := Option.some.inj hstep
      exact h.advance rfl hphase rfl rfl ⟨0, huntouched⟩
  · cases hstep

theorem StartupOk.ftruncate {ok : Bool} (hstep : s.ftruncate ok = some s') :
    StartupOk host (steps ++ [.ftruncate ok]) s' := by
  unfold Startup.ftruncate at hstep
  split at hstep
  · rename_i capacity hphase
    obtain ⟨hobject, h4, huntouched⟩ := h.server_at hphase
    split at hstep
    · obtain rfl := Option.some.inj hstep
      have htruncated : Truncated capacity (some (SharedMemoryServer.shmemSize capacity)) := ⟨h4, rfl⟩
      refine h.construct rfl hphase rfl rfl ⟨htruncated, huntouched⟩ rfl ?_ id ?_
      · exact fun _ => htruncated.hasMembers
      · exact fun _ _ => Or.inr htruncated.hasMembers
    · obtain rfl := Option.some.inj hstep
      exact h.advance rfl hphase rfl rfl ⟨0, huntouched⟩
  · cases hstep

theorem StartupOk.mmap {ok : Bool} (hstep : s.mmap ok = some s') :
    StartupOk host (steps ++ [.mmap ok]) s' := by
  unfold Startup.mmap at hstep
  split at hstep
  · rename_i capacity hphase
    have hok := h.server_at hphase
    split at hstep
    · obtain rfl := Option.some.inj hstep
      exact h.advance rfl hphase rfl rfl hok
    · obtain rfl := Option.some.inj hstep
      exact h.advance rfl hphase rfl rfl ⟨0, hok.2⟩
  · cases hstep

theorem StartupOk.initCapacity (hstep : s.initCapacity = some s') :
    StartupOk host (steps ++ [.initCapacity]) s' := by
  unfold Startup.initCapacity at hstep
  split at hstep
  · rename_i capacity hphase
    obtain ⟨htruncated, hflag, hsystem⟩ := h.server_at hphase
    obtain rfl := Option.some.inj hstep
    apply h.advance rfl hphase rfl rfl
    refine ⟨htruncated, hflag, ?_⟩
    rw [hsystem]
    rfl
  · cases hstep

theorem StartupOk.initFlag (hstep : s.initFlag = some s') :
    StartupOk host (steps ++ [.initFlag]) s' := by
  unfold Startup.initFlag at hstep
  split at hstep
  · rename_i capacity hphase
    have hok := h.server_at hphase
    obtain rfl := Option.some.inj hstep
    -- The flag was clear before, so nobody has gone past the wait.
    refine h.construct rfl hphase rfl rfl ⟨hok.1, rfl, hok.2.system_eq⟩ rfl id ?_ h.size
    intro hset
    rw [hok.2.flag] at hset
    cases hset
  · cases hstep

theorem StartupOk.initProducerIndex (hstep : s.initProducerIndex = some s') :
    StartupOk host (steps ++ [.initProducerIndex]) s' := by
  unfold Startup.initProducerIndex at hstep
  split at hstep
  · rename_i capacity hphase
    obtain ⟨htruncated, hflag, hsystem⟩ := h.server_at hphase
    obtain rfl := Option.some.inj hstep
    apply h.advance rfl hphase rfl rfl
    refine ⟨htruncated, hflag, ?_⟩
    rw [hsystem]
    rfl
  · cases hstep

theorem StartupOk.initConsumerIndex (hstep : s.initConsumerIndex = some s') :
    StartupOk host (steps ++ [.initConsumerIndex]) s' := by
  unfold Startup.initConsumerIndex at hstep
  split at hstep
  · rename_i capacity hphase
    obtain ⟨htruncated, hflag, hsystem⟩ := h.server_at hphase
    obtain rfl := Option.some.inj hstep
    apply h.advance rfl hphase rfl rfl
    refine ⟨htruncated, hflag, ?_⟩
    rw [hsystem]
    rfl
  · cases hstep

theorem StartupOk.checkCapacity (hstep : s.checkCapacity = some s') :
    StartupOk host (steps ++ [.checkCapacity]) s' := by
  unfold Startup.checkCapacity at hstep
  split at hstep
  · rename_i capacity hphase
    have hok := h.server_at hphase
    rw [SPSCRingBuffer.alignCapacity_of_aligned hok.1.aligned] at hstep
    change (if capacity ≠ capacity then _ else _) = some s' at hstep
    rw [if_neg (not_not_intro rfl)] at hstep
    obtain rfl := Option.some.inj hstep
    exact h.advance rfl hphase rfl rfl hok
  · cases hstep

/-- The last step; nothing has been sent so far. -/
theorem StartupOk.setInitialized (hstep : s.setInitialized = some s') :
    StartupOk host (steps ++ [.setInitialized]) s' := by
  unfold Startup.setInitialized at hstep
  split at hstep
  · rename_i capacity hphase
    obtain ⟨htruncated, hflag, hsystem⟩ := h.server_at hphase
    have hquiet := h.quiet (congrArg ServerPhase.isReady hphase)
    obtain rfl := Option.some.inj hstep
    refine ⟨⟨htruncated, rfl, ?_⟩, h.client.mono id fun _ => rfl, h.size, nofun, ?_⟩
    · rw [hsystem]
      exact SafeState.initial host capacity _
    · intro capacity' _
      rw [sentMessages_of_quiet capacity' (quiet_append rfl hquiet)]
      simp only [hsystem]
      rfl
  · cases hstep

end Construction

/-! What the turns of each side do with the messages. -/

section Messages
variable {host : Endianness} {capacity : UInt32} {s s' : RingSystem}

theorem Transfer.start_payloadSize {index : IndexAsUInt64} {payloadSize capacity : UInt32}
    {transfer : Transfer} (h : Transfer.start index payloadSize capacity = .ok transfer) :
    transfer.payloadSize = payloadSize := by
  unfold Transfer.start at h
  split at h
  · obtain rfl := Except.ok.inj h
    rfl
  · cases h

theorem RingSystem.turn_of_isPop {t : Turn} (hturn : s.turn host t = some s')
    (hpop : t.isPop = true) : s'.push = s.push ∧ s'.published = s.published := by
  cases t
  case beginPush | loadConsumerIndex | storeHeader | storeByte | publishRecord => cases hpop
  all_goals
    simp only [RingSystem.turn, RingSystem.beginPop, RingSystem.loadProducerIndex,
      RingSystem.loadHeader, RingSystem.loadByte, RingSystem.releaseRecord] at hturn
    repeat' split at hturn
    all_goals cases hturn
    all_goals exact ⟨rfl, rfl⟩

theorem SafeState.not_aborted (h : SafeState host capacity s) :
    s.push ≠ .aborted ∧ s.pop ≠ .aborted := by
  constructor
  · intro habort
    have hok := h.push
    rw [habort] at hok
    exact hok
  · intro habort
    have hok := h.pop
    rw [habort] at hok
    exact hok

theorem SafeState.beginPush_sends (h : SafeState host capacity s) {payload : Memory UInt8}
    {payloadSize : UInt64} (hturn : s.turn host (.beginPush payload payloadSize) = some s') :
    s'.payloads ++ s'.sending = s.payloads ++ s.sending ++
      (Turn.message capacity (.beginPush payload payloadSize)).toList := by
  simp only [RingSystem.turn, RingSystem.beginPush] at hturn
  split at hturn
  · rename_i hidle
    simp only [Turn.message]
    rcases Nat.lt_or_ge capacity.toNat (4 + payloadSize.toNat) with hbig | hfit
    · rw [h.layout.capacity_eq, SPSCRingBuffer.checkedRecordSize_rejects hbig] at hturn
      obtain rfl := Option.some.inj hturn
      rw [if_neg (by omega)]
      exact (List.append_nil _).symm
    · obtain ⟨recordSize, hrecord, _⟩ := SPSCRingBuffer.checkedRecordSize_fits hfit
      rw [h.layout.capacity_eq, hrecord] at hturn
      obtain rfl := Option.some.inj hturn
      rw [if_pos hfit]
      simp only [RingSystem.sending, hidle, List.append_nil]
      rfl
  · cases hturn

theorem RingSystem.loadConsumerIndex_sends {i : Nat}
    (hturn : s.turn host (.loadConsumerIndex i) = some s') (hnext : s'.push ≠ .aborted) :
    s'.payloads ++ s'.sending = s.payloads ++ s.sending := by
  simp only [RingSystem.turn, RingSystem.loadConsumerIndex] at hturn
  split at hturn
  · rename_i hwaiting _
    simp only [RingSystem.sending, hwaiting]
    repeat' split at hturn
    all_goals cases hturn
    · rfl
    · simp only [hwaiting]
      rfl
    · exact absurd rfl hnext
  · cases hturn

theorem SafeState.storeHeader_sends (h : SafeState host capacity s)
    (hturn : s.turn host .storeHeader = some s') (hnext : s'.push ≠ .aborted) :
    s'.payloads ++ s'.sending = s.payloads ++ s.sending := by
  have hok := h.push
  simp only [RingSystem.turn, RingSystem.storeHeader] at hturn
  split at hturn
  · rename_i payload payloadSize own hpassed
    rw [hpassed] at hok
    have hfits := hok.2.fits
    have hc := capacity.toNat_lt
    split at hturn
    · rename_i transfer hstart
      obtain rfl := Option.some.inj hturn
      simp only [RingSystem.sending, hpassed, Transfer.start_payloadSize hstart]
      rw [UInt64.toNat_toUInt32, Nat.mod_eq_of_lt (by omega)]
      rfl
    · obtain rfl := Option.some.inj hturn
      exact absurd rfl hnext
  · cases hturn

theorem RingSystem.storeByte_sends (hturn : s.turn host .storeByte = some s') :
    s'.payloads ++ s'.sending = s.payloads ++ s.sending := by
  simp only [RingSystem.turn, RingSystem.storeByte] at hturn
  split at hturn
  · rename_i payload transfer copied hcopying
    split at hturn
    · obtain rfl := Option.some.inj hturn
      simp only [RingSystem.sending, hcopying]
      rfl
    · cases hturn
  · cases hturn

theorem RingSystem.publishRecord_sends (hturn : s.turn host .publishRecord = some s') :
    s'.payloads ++ s'.sending = s.payloads ++ s.sending := by
  simp only [RingSystem.turn, RingSystem.publishRecord] at hturn
  split at hturn
  · rename_i payload transfer copied hcopying
    split at hturn
    · rename_i hall
      obtain rfl := Option.some.inj hturn
      simp only [List.append_nil, RingSystem.sending, hcopying]
      rw [← hall]
      exact s.payloads_append _
    · cases hturn
  · cases hturn

/-- A turn of a Push adds the message it begins with, and loses none. -/
theorem SafeState.turn_sends (h4 : capacity.toNat % 4 = 0) (h : SafeState host capacity s)
    {t : Turn} (hturn : s.turn host t = some s') (hpush : t.isPop = false) :
    s'.payloads ++ s'.sending = s.payloads ++ s.sending ++ (t.message capacity).toList := by
  have hnext := (safe_turn h4 h hturn).not_aborted.1
  cases t with
  | beginPop _ _ | loadProducerIndex _ | loadHeader | loadByte | releaseRecord => cases hpush
  | beginPush payload payloadSize => exact h.beginPush_sends hturn
  | loadConsumerIndex i =>
    exact (RingSystem.loadConsumerIndex_sends hturn hnext).trans (List.append_nil _).symm
  | storeHeader => exact (h.storeHeader_sends hturn hnext).trans (List.append_nil _).symm
  | storeByte => exact (RingSystem.storeByte_sends hturn).trans (List.append_nil _).symm
  | publishRecord => exact (RingSystem.publishRecord_sends hturn).trans (List.append_nil _).symm

end Messages

/-! Steps of the client and turns. -/

section Client
variable {host : Endianness} {steps : List StartupStep} {s s' : Startup}

theorem sentMessages_clientTurn (capacity : UInt32) (steps : List StartupStep) (t : Turn) :
    sentMessages capacity (steps ++ [.clientTurn t]) =
      sentMessages capacity steps ++ (t.message capacity).toList := by
  unfold sentMessages
  rw [List.filterMap_append]
  cases hmessage : t.message capacity with
  | none => simp [hmessage]
  | some message => simp [hmessage]

variable (h : StartupOk host steps s)
include h

theorem StartupOk.connect {e : StartupStep} (he : e.isSend = false) {client : ClientPhase}
    (hclient : ClientOk s.hasMembers s.isInitialized client) :
    StartupOk host (steps ++ [e]) { s with client } := by
  refine ⟨h.server, hclient, h.size, fun hbefore => quiet_append he (h.quiet hbefore), ?_⟩
  intro capacity hready
  rw [sentMessages_append capacity steps he]
  exact h.sent capacity hready

theorem StartupOk.client_at {client : ClientPhase} (hphase : s.client = client) :
    ClientOk s.hasMembers s.isInitialized client := hphase ▸ h.client

theorem StartupOk.connectShmOpen {ok : Bool} (hstep : s.connectShmOpen ok = some s') :
    StartupOk host (steps ++ [.connectShmOpen ok]) s' := by
  unfold Startup.connectShmOpen at hstep
  repeat' split at hstep
  all_goals cases hstep
  all_goals exact h.connect rfl trivial

/-- Past the check of its size, the object has the ring's members. -/
theorem StartupOk.connectFstat {ok : Bool} (hstep : s.connectFstat ok = some s') :
    StartupOk host (steps ++ [.connectFstat ok]) s' := by
  unfold Startup.connectFstat at hstep
  split at hstep
  · rename_i size _ hobject
    split at hstep
    · split at hstep
      · cases hstep
        exact h.connect rfl trivial
      · rename_i hne
        cases hstep
        rcases h.size size hobject with hzero | hmembers
        · exact absurd hzero hne
        · exact h.connect rfl hmembers
    · cases hstep
      exact h.connect rfl trivial
  · cases hstep

theorem StartupOk.connectMmap {ok : Bool} (hstep : s.connectMmap ok = some s') :
    StartupOk host (steps ++ [.connectMmap ok]) s' := by
  unfold Startup.connectMmap at hstep
  split at hstep
  · rename_i hphase
    have hmembers := h.client_at hphase
    split at hstep
    · cases hstep
      exact h.connect rfl hmembers
    · cases hstep
      exact h.connect rfl trivial
  · cases hstep

theorem StartupOk.waitInitialized (hstep : s.waitInitialized = some s') :
    StartupOk host (steps ++ [.waitInitialized]) s' := by
  unfold Startup.waitInitialized at hstep
  split at hstep
  · rename_i hphase
    have hmembers : s.hasMembers = true := h.client_at hphase
    rw [if_pos hmembers] at hstep
    split at hstep
    · rename_i hset
      cases hstep
      exact h.connect rfl ⟨hmembers, hset⟩
    · cases hstep
  · cases hstep

theorem StartupOk.assertInitialized (hstep : s.assertInitialized = some s') :
    StartupOk host (steps ++ [.assertInitialized]) s' := by
  unfold Startup.assertInitialized at hstep
  split at hstep
  · rename_i hphase
    have hok := h.client_at hphase
    rw [if_pos hok.2] at hstep
    cases hstep
    exact h.connect rfl hok
  · cases hstep

theorem StartupOk.connectReturn (hstep : s.connectReturn = some s') :
    StartupOk host (steps ++ [.connectReturn]) s' := by
  unfold Startup.connectReturn at hstep
  split at hstep
  · rename_i hphase
    have hok := h.client_at hphase
    rw [if_pos hok.2] at hstep
    cases hstep
    exact h.connect rfl hok
  · cases hstep

/-- A set flag means that the constructor has returned. -/
theorem StartupOk.ready_of_flag (hset : s.isInitialized = true) :
    ∃ capacity, s.server = .ready capacity ∧ capacity.toNat % 4 = 0 ∧
      SafeState host capacity s.system := by
  rcases h.server.untouched_or_ready with ⟨_, huntouched⟩ | ⟨capacity, hready, htruncated, _, hsafe⟩
  · rw [huntouched.flag] at hset
    cases hset
  · exact ⟨capacity, hready, htruncated.aligned, hsafe⟩

theorem StartupOk.serverTurn {t : Turn} (hstep : s.serverTurn host t = some s') :
    StartupOk host (steps ++ [.serverTurn t]) s' := by
  unfold Startup.serverTurn at hstep
  split at hstep
  · rename_i capacity hphase
    obtain ⟨htruncated, hset, hsafe⟩ := h.server_at hphase
    split at hstep
    · rename_i hpop
      obtain ⟨system, hturn, rfl⟩ := Option.map_eq_some_iff.mp hstep
      obtain ⟨hpush, hpublished⟩ := RingSystem.turn_of_isPop hturn hpop
      have hserver : ServerOk host s.objectSize s.isInitialized system s.server := by
        rw [hphase]
        exact ⟨htruncated, hset, safe_turn htruncated.aligned hsafe hturn⟩
      refine ⟨hserver, h.client, h.size, fun hbefore => quiet_append rfl (h.quiet hbefore), ?_⟩
      intro capacity' hready
      rw [sentMessages_append capacity' steps rfl, ← h.sent capacity' hready]
      simp only [RingSystem.payloads, RingSystem.sending, hpush, hpublished]
    · cases hstep
  · cases hstep

theorem StartupOk.clientTurn {t : Turn} (hstep : s.clientTurn host t = some s') :
    StartupOk host (steps ++ [.clientTurn t]) s' := by
  unfold Startup.clientTurn at hstep
  split at hstep
  · rename_i hphase
    obtain ⟨_, hset⟩ := h.client_at hphase
    obtain ⟨capacity, hready, h4, hsafe⟩ := h.ready_of_flag hset
    obtain ⟨htruncated, _⟩ := h.server_at hready
    split at hstep
    · cases hstep
    · rename_i hpush
      obtain ⟨system, hturn, rfl⟩ := Option.map_eq_some_iff.mp hstep
      have hserver : ServerOk host s.objectSize s.isInitialized system s.server := by
        rw [hready]
        exact ⟨htruncated, hset, safe_turn h4 hsafe hturn⟩
      refine ⟨hserver, h.client, h.size, ?_, ?_⟩
      · intro hbefore
        have hnot : s.server.isReady = false := hbefore
        rw [hready] at hnot
        cases hnot
      · intro capacity' hready'
        obtain rfl : capacity = capacity' :=
          ServerPhase.ready.inj (hready.symm.trans hready')
        rw [sentMessages_clientTurn, ← h.sent capacity hready]
        exact hsafe.turn_sends h4 hturn (Bool.eq_false_iff.mpr hpush)
  · cases hstep

end Client

theorem StartupOk.step {host : Endianness} {bufferSize : Option UInt64}
    {steps : List StartupStep} {s s' : Startup} (h : StartupOk host steps s) {e : StartupStep}
    (hstep : Startup.Steps host bufferSize s e s') : StartupOk host (steps ++ [e]) s' := by
  cases e with
  | shmOpen ok => exact h.shmOpen hstep
  | alignCapacity => exact h.alignCapacity hstep
  | ftruncate ok => exact h.ftruncate hstep
  | mmap ok => exact h.mmap hstep
  | initCapacity => exact h.initCapacity hstep
  | initFlag => exact h.initFlag hstep
  | initProducerIndex => exact h.initProducerIndex hstep
  | initConsumerIndex => exact h.initConsumerIndex hstep
  | checkCapacity => exact h.checkCapacity hstep
  | setInitialized => exact h.setInitialized hstep
  | serverTurn t => exact h.serverTurn hstep
  | connectShmOpen ok => exact h.connectShmOpen hstep
  | connectFstat ok => exact h.connectFstat hstep
  | connectMmap ok => exact h.connectMmap hstep
  | waitInitialized => exact h.waitInitialized hstep
  | assertInitialized => exact h.assertInitialized hstep
  | connectReturn => exact h.connectReturn hstep
  | clientTurn t => exact h.clientTurn hstep

theorem StartupOk.of_run {host : Endianness} {bufferSize : Option UInt64}
    {steps : List StartupStep} {s : Startup}
    (hrun : Run (Startup.Steps host bufferSize) Startup.initial steps s) :
    StartupOk host steps s :=
  hrun.invariant_history (StartupOk.initial host) fun _ _ _ _ h hstep => h.step hstep

/-! Main result. -/

section Main
variable {host : Endianness} {bufferSize : Option UInt64} {steps : List StartupStep} {s : Startup}

theorem StartupOk.no_fault (h : StartupOk host steps s) :
    s.client ≠ .faulted ∧ s.client ≠ .failed .assertion := by
  constructor
  · intro hphase
    exact h.client_at hphase
  · intro hphase
    exact h.client_at hphase

theorem StartupOk.not_aborted (h : StartupOk host steps s) :
    s.system.push ≠ .aborted ∧ s.system.pop ≠ .aborted := by
  rcases h.server.untouched_or_ready with ⟨_, huntouched⟩ | ⟨_, _, _, _, hsafe⟩
  · rw [huntouched.system_eq]
    exact ⟨nofun, nofun⟩
  · exact hsafe.not_aborted

/-- The constructor takes no step once it has returned. -/
theorem Startup.not_ready_of_constructs {e : StartupStep} {s' : Startup}
    (he : e.constructs = true) (hstep : Startup.Steps host bufferSize s e s') :
    s.server.isReady = false := by
  cases hphase : s.server with
  | ready capacity =>
    cases e
    case serverTurn | connectShmOpen | connectFstat | connectMmap | waitInitialized |
      assertInitialized | connectReturn | clientTurn => cases he
    all_goals
      simp only [Startup.Steps, Startup.step, Startup.shmOpen, Startup.alignCapacity,
        Startup.ftruncate, Startup.mmap, Startup.initCapacity, Startup.initFlag,
        Startup.initProducerIndex, Startup.initConsumerIndex, Startup.checkCapacity,
        Startup.setInitialized, hphase] at hstep
      cases hstep
  | _ => rfl

/-- The server's turns run in the system as they do in the ring alone. -/
theorem Startup.run_serverTurns {capacity : UInt32} {turns : List Turn} {system : RingSystem}
    (hready : s.server = .ready capacity) (hpop : ∀ t ∈ turns, t.isPop = true)
    (hrun : Run (RingSystem.Turns host) s.system turns system) :
    Run (Startup.Steps host bufferSize) s (turns.map .serverTurn) { s with system } := by
  induction hrun with
  | start => exact .start
  | @step turns t system' system'' hrun hturn ih =>
    rw [List.map_append]
    refine .step (ih fun p hmem => hpop p (List.mem_append_left _ hmem)) ?_
    have hlast : t.isPop = true := hpop t (List.mem_append_right _ (List.mem_singleton_self _))
    have hmap : (system'.turn host t).map (fun system => { s with system }) =
        some { s with system := system'' } := by
      rw [hturn]
      rfl
    unfold Startup.Steps Startup.step Startup.serverTurn
    simp only [hready, hlast, if_true]
    simpa only [hready] using hmap

theorem SafeState.fits {capacity : UInt32} {system : RingSystem}
    (h : SafeState host capacity system) :
    ∀ m ∈ system.payloads.drop system.released, m.length ≤ capacity.toUInt64.toNat := by
  intro m hmem
  unfold RingSystem.payloads at hmem
  rw [← List.map_drop] at hmem
  obtain ⟨r, hr, rfl⟩ := List.mem_map.mp hmem
  obtain ⟨_, _, _, hfits, _⟩ := h.layout.unreleased hr
  rw [UInt32.toNat_toUInt64]
  omega

end Main

/-- Nothing fails and nothing is lost, whatever the order of the constructor's steps, the calls of
Connect and the turns of the Sends and Receives after them. -/
theorem startup_loses_nothing (host : Endianness) (bufferSize : Option UInt64)
    {steps : List StartupStep} {s : Startup}
    (hrun : Run (Startup.Steps host bufferSize) Startup.initial steps s) :
    (s.client ≠ .faulted ∧ s.client ≠ .failed .assertion ∧
      s.system.push ≠ .aborted ∧ s.system.pop ≠ .aborted) ∧
    (s.client = .connected → ∃ capacity, s.server = .ready capacity) ∧
    (∀ e s', e.constructs = true → Startup.Steps host bufferSize s e s' →
      s.system.published = [] ∧ s.system.push = .idle ∧ ∀ t, StartupStep.clientTurn t ∉ steps) ∧
    ∀ capacity, s.server = .ready capacity →
      s.system.payloads ++ s.system.sending = sentMessages capacity steps ∧
      s.system.popped = (sentMessages capacity steps).take s.system.released ∧
      ∃ (turns : List Turn) (s' : Startup),
        Run (Startup.Steps host bufferSize) s (turns.map .serverTurn) s' ∧
        s'.system.popped = s.system.payloads := by
  have h := StartupOk.of_run hrun
  obtain ⟨hfault, hassert⟩ := h.no_fault
  refine ⟨⟨hfault, hassert, h.not_aborted⟩, ?_, ?_, ?_⟩
  · intro hconnected
    obtain ⟨_, hset⟩ := h.client_at hconnected
    obtain ⟨capacity, hready, _⟩ := h.ready_of_flag hset
    exact ⟨capacity, hready⟩
  · intro e s' he hstep
    have hbefore := Startup.not_ready_of_constructs he hstep
    rcases h.server.untouched_or_ready with ⟨_, huntouched⟩ | ⟨capacity, hready, _⟩
    · rw [huntouched.system_eq]
      refine ⟨rfl, rfl, fun t hmem => ?_⟩
      cases h.quiet hbefore _ hmem
    · rw [hready] at hbefore
      cases hbefore
  · intro capacity hready
    obtain ⟨htruncated, _, hsafe⟩ := h.server_at hready
    have hsent := h.sent capacity hready
    refine ⟨hsent, ?_, ?_⟩
    · have hreleased := Nat.le_trans hsafe.layout.released_le hsafe.layout.consumerSaw_le
      rw [hsafe.layout.popped, ← hsent, List.take_append_of_le_length hreleased]
    · obtain ⟨_, system, ⟨turns, hpop, hturns, _⟩, hpopped⟩ :=
        hsafe.drains htruncated.aligned hsafe.fits
      exact ⟨turns, _, Startup.run_serverTurns hready hpop hturns, hpopped⟩

/-- A client that sees the object missing, then empty, then without a ring in it. -/
def sampleStart : List StartupStep :=
  [.connectShmOpen true, .shmOpen true, .connectShmOpen true, .connectFstat true, .alignCapacity,
    .connectShmOpen true, .ftruncate true, .connectFstat true, .connectMmap true, .mmap true,
    .initCapacity, .initFlag, .initProducerIndex, .initConsumerIndex, .checkCapacity,
    .setInitialized, .waitInitialized, .assertInitialized, .connectReturn,
    .clientTurn (.beginPush (bytesAt [7, 8]) 2), .clientTurn (.loadConsumerIndex 0),
    .clientTurn .storeHeader, .clientTurn .storeByte, .clientTurn .storeByte,
    .clientTurn .publishRecord, .serverTurn (.beginPop (bytesAt []) 8)]

theorem startup_loses_nothing_sample :
    ∃ s, Run (Startup.Steps .kLittle (some 16)) Startup.initial sampleStart s ∧
      s.client = .connected ∧ s.server = .ready 16 ∧ s.system.payloads = [[7, 8]] ∧
      ∃ (turns : List Turn) (s' : Startup),
        Run (Startup.Steps .kLittle (some 16)) s (turns.map .serverTurn) s' ∧
        s'.system.popped = s.system.payloads := by
  have hrun : Run (Startup.Steps .kLittle (some 16)) Startup.initial sampleStart _ :=
    Run.of_foldlM rfl
  have hall := startup_loses_nothing .kLittle (some 16) hrun
  exact ⟨_, hrun, rfl, rfl, rfl, (hall.2.2.2 16 rfl).2.2⟩

end IpcChecker
