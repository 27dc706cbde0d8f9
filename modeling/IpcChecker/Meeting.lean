import IpcChecker.Rendezvous
import IpcChecker.RunTest

/-!
# Whether the processes find each other by their names

What the servers make, and what the clients look for, is computed from the ids in the
arguments: a C string ends at a zero byte, a port is cut to 16 bits, and the path of a Unix
socket to what `sun_path` has room for. What a name leads to is up to the system. The ends of a
connection may be called alike and still miss each other.
-/

namespace IpcChecker.CommandLine
open Shared Endpoint Actors Rendezvous
set_option autoImplicit false

/-- What the names lead to: whether a host is the machine of a connection's server, the file of a
path and the object of a name as each process sees them, and whether `open` of the client of a
Unix socket finds another file under the whole of its path. -/
structure Surroundings where
  leads : Connection → StringView → Bool
  file : Process → StringView → Nat
  object : Process → StringView → Nat
  opens : Connection → Bool

/-- What a server makes for its clients to find. -/
inductive Site where
  | port (sinPort : List UInt8)
  | fifo (file : Nat)
  | shmem (object : Nat)
  | uxSocket (file : Nat)
  deriving DecidableEq

/-- `bind` gives such a server a port of its own, and nobody can connect to it under this one. -/
def anyPort : List UInt8 := [0, 0]

/-- None where it throws. -/
def hostAndPort (id : StringView) : Option HostAndPort :=
  match (parseHostAndPort id).run () with
  | .ok hostAndPort _ => some hostAndPort
  | .error _ _ => none

section Sites
variable (s : Surroundings) (c : Connection) (sunPathEnd : UInt8)

/-- What the constructor of a server is to make; `sunPathEnd` is the byte of `sun_path` that it
does not set. -/
def serverSite (server : ConnectionParams) : Option Site :=
  match server.type with
  | .kNetSocket => (hostAndPort server.id).map fun address => .port (htons address.port)
  | .kPipe => some (.fifo (s.file (Rendezvous.server c) (cStr (tmpPath server.id))))
  | .kSharedMemory => some (.shmem (s.object (Rendezvous.server c) (cStr server.id)))
  | .kUnixSocket =>
    some (.uxSocket (s.file (Rendezvous.server c) (sunPath (tmpPath server.id) sunPathEnd)))

/-- Whether `Connect` finds what the server made. -/
def clientFinds (client : ConnectionParams) (site : Site) : Option Bool :=
  match client.type with
  | .kNetSocket => (hostAndPort client.id).map fun address =>
    s.leads c (cStr address.host) && htons address.port != anyPort &&
      site == .port (htons address.port)
  | .kPipe => some (site == .fifo (s.file (Rendezvous.client c) (cStr (tmpPath client.id))))
  | .kSharedMemory => some (site == .shmem (s.object (Rendezvous.client c) (cStr client.id)))
  | .kUnixSocket =>
    -- `open` is given the whole name, `connect` what is in `sun_path`
    some ((s.opens c ||
        site == .uxSocket (s.file (Rendezvous.client c) (cStr (tmpPath client.id)))) &&
      site == .uxSocket (s.file (Rendezvous.client c) (sunPath (tmpPath client.id) sunPathEnd)))

end Sites

/-- All three, or none. -/
def forEach {α : Type} (f : Connection → Option α) : Option (Connection → α) := do
  let consumerProducer ← f .consumerProducer
  let measurerProducer ← f .measurerProducer
  let measurerConsumer ← f .measurerConsumer
  return fun
    | .consumerProducer => consumerProducer
    | .measurerProducer => measurerProducer
    | .measurerConsumer => measurerConsumer

section Arguments
variable (analyzer : AnalizerArguments) (consumer : ConsumerArguments)
variable (producer : ProducerArguments)

def clientParams : Connection → Option ConnectionParams
  | .consumerProducer => producer.consumerProducerConnectionClientParams
  | .measurerProducer => producer.measurerProducerConnectionClientParams
  | .measurerConsumer => consumer.measurerConsumerConnectionClientParams

def serverParams : Connection → Option ConnectionParams
  | .consumerProducer => consumer.consumerProducerConnectionServerParams
  | .measurerProducer => analyzer.measurerProducerConnectionServerParams
  | .measurerConsumer => analyzer.measurerConsumerConnectionServerParams

/-- Who was given a size for the buffer of the connection. -/
def sized : Process → Bool
  | .analyzer => false
  | .consumer => consumer.connectionBufferSize.isSome
  | .producer => producer.connectionBufferSize.isSome

/-- None where a process reads a member that was never written. -/
def arrangementOf : Option Arrangement := do
  let clients ← forEach (clientParams consumer producer)
  let servers ← forEach (serverParams analyzer consumer)
  return ⟨fun c => (clients c).type, fun c => (servers c).type, sized consumer producer⟩

/-- The ends of the connections; none where a process reads a member that was never written, or
throws over the address of a net socket. -/
def endsOf (s : Surroundings) (clientEnd serverEnd : Connection → UInt8)
    (fifo : Connection → Bool) : Option Ends := do
  let arrangement ← arrangementOf analyzer consumer producer
  let clients ← forEach (clientParams consumer producer)
  let servers ← forEach (serverParams analyzer consumer)
  let sites ← forEach fun c => serverSite s c (serverEnd c) (servers c)
  let found ← forEach fun c => clientFinds s c (clientEnd c) (clients c) (sites c)
  return { toArrangement := arrangement, fifo := fifo, meets := found }

end Arguments

/-- The ends name one site, and no part of the name is left to chance. -/
inductive Agree (s : Surroundings) (c : Connection) : ConnectionParams → ConnectionParams → Prop
  | netSocket {id id' : StringView} {address address' : HostAndPort} :
    hostAndPort id = some address → hostAndPort id' = some address' →
    s.leads c (cStr address.host) = true → htons address.port ≠ anyPort →
    htons address.port = htons address'.port →
    Agree s c ⟨.kNetSocket, id⟩ ⟨.kNetSocket, id'⟩
  | pipe {id id' : StringView} :
    s.file (client c) (cStr (tmpPath id)) = s.file (server c) (cStr (tmpPath id')) →
    Agree s c ⟨.kPipe, id⟩ ⟨.kPipe, id'⟩
  | sharedMemory {id id' : StringView} :
    s.object (client c) (cStr id) = s.object (server c) (cStr id') →
    Agree s c ⟨.kSharedMemory, id⟩ ⟨.kSharedMemory, id'⟩
  | unixSocket {id id' : StringView} :
    (∀ clientEnd serverEnd, s.file (client c) (sunPath (tmpPath id) clientEnd) =
      s.file (server c) (sunPath (tmpPath id') serverEnd)) →
    (s.opens c = true ∨ ∀ serverEnd, s.file (client c) (cStr (tmpPath id)) =
      s.file (server c) (sunPath (tmpPath id') serverEnd)) →
    Agree s c ⟨.kUnixSocket, id⟩ ⟨.kUnixSocket, id'⟩

/-! Names that are cut. -/

section Names
variable {name path id id' : List UInt8}

theorem cStr_append (h : 0 ∉ name) : cStr (name ++ path) = name ++ cStr path := by
  apply List.takeWhile_append_of_pos
  intro b hb
  exact decide_eq_true fun hzero => h (hzero ▸ hb)

theorem zero_notMem_cStr : 0 ∉ cStr name := by
  intro hmem
  have hne := List.mem_takeWhile_imp (p := fun b : UInt8 => decide (b ≠ 0)) hmem
  exact of_decide_eq_true hne rfl

theorem cStr_tmpPath : cStr (tmpPath id) = tmpPath (cStr id) := cStr_append (by decide)

theorem tmpPath_inj : tmpPath id = tmpPath id' ↔ id = id' := List.append_right_inj _

theorem length_tmpPath : (tmpPath id).length = id.length + 5 := rfl

/-- A name that leaves the last byte of `sun_path` to its end is there as a whole. -/
theorem sunPath_short (h : (cStr name).length < 107) (sunPathEnd : UInt8) :
    sunPath name sunPathEnd = cStr name := by
  unfold sunPath strncpy
  obtain ⟨n, hn⟩ : ∃ n, 107 - (cStr name).length = n + 1 := ⟨106 - (cStr name).length, by omega⟩
  rw [List.take_of_length_le h.le, hn, List.append_assoc, cStr_append zero_notMem_cStr]
  exact List.append_nil _

theorem sunPath_long (h : 107 ≤ (cStr name).length) (sunPathEnd : UInt8) :
    sunPath name sunPathEnd = (cStr name).take 107 ++ cStr [sunPathEnd] := by
  unfold sunPath strncpy
  rw [Nat.sub_eq_zero_of_le h, List.replicate_zero, List.append_nil]
  exact cStr_append fun hmem => zero_notMem_cStr (List.mem_of_mem_take hmem)

/-- The path does not depend on the byte that is not set exactly when the name is short. -/
theorem sunPath_constant_iff :
    (∀ sunPathEnd, sunPath name sunPathEnd = path) ↔
      cStr name = path ∧ (cStr name).length < 107 := by
  constructor
  · intro hall
    rcases Nat.lt_or_ge (cStr name).length 107 with hshort | hlong
    · exact ⟨(sunPath_short hshort 0).symm.trans (hall 0), hshort⟩
    · have hsame := (hall 0).trans (hall 1).symm
      rw [sunPath_long hlong, sunPath_long hlong] at hsame
      exact absurd (List.append_cancel_left hsame) (by decide)
  · rintro ⟨rfl, hshort⟩ sunPathEnd
    exact sunPath_short hshort sunPathEnd

end Names

/-! One connection. -/

section Joined
variable {s : Surroundings} {c : Connection} {client server : ConnectionParams}

/-- The client finds the server, with these bytes at the ends of `sun_path`. -/
def Finds (s : Surroundings) (c : Connection) (client server : ConnectionParams)
    (clientEnd serverEnd : UInt8) : Prop :=
  ∃ site, serverSite s c serverEnd server = some site ∧
    clientFinds s c clientEnd client site = some true

/-- Ends agree exactly when the client finds the server whatever is in the bytes that are not
set. -/
theorem agree_iff_finds : Agree s c client server ↔
    ∀ clientEnd serverEnd, Finds s c client server clientEnd serverEnd := by
  constructor
  · intro h clientEnd serverEnd
    cases h with
    | netSocket haddress haddress' hleads hport hsame =>
      refine ⟨_, Option.map_eq_some_iff.mpr ⟨_, haddress', rfl⟩, ?_⟩
      simp [clientFinds, haddress, hleads, hsame, hsame ▸ hport]
    | pipe hfile => exact ⟨_, rfl, by simp [clientFinds, hfile]⟩
    | sharedMemory hobject => exact ⟨_, rfl, by simp [clientFinds, hobject]⟩
    | unixSocket hfile hopens =>
      refine ⟨_, rfl, ?_⟩
      simp only [clientFinds, hfile clientEnd serverEnd, Option.some.injEq, Bool.and_eq_true,
        Bool.or_eq_true, beq_iff_eq, Site.uxSocket.injEq, and_true]
      exact hopens.imp_right fun hwhole => (hwhole serverEnd).symm
  · intro h
    obtain ⟨type, id⟩ := client
    obtain ⟨type', id'⟩ := server
    obtain ⟨site, hsite, hfinds⟩ := h 0 0
    cases type' with
    | kNetSocket =>
      obtain ⟨address', haddress', rfl⟩ := Option.map_eq_some_iff.mp hsite
      cases type <;> simp [clientFinds] at hfinds
      obtain ⟨address, haddress, ⟨hleads, hport⟩, hsame⟩ := hfinds
      exact .netSocket haddress haddress' hleads hport hsame.symm
    | kPipe =>
      cases hsite
      cases type <;> simp [clientFinds] at hfinds
      exact .pipe hfinds.symm
    | kSharedMemory =>
      cases hsite
      cases type <;> simp [clientFinds] at hfinds
      exact .sharedMemory hfinds.symm
    | kUnixSocket =>
      cases hsite
      cases type <;> simp [clientFinds] at hfinds
      have hall : ∀ clientEnd serverEnd,
          (s.opens c = true ∨ s.file (Rendezvous.server c) (sunPath (tmpPath id') serverEnd) =
            s.file (Rendezvous.client c) (cStr (tmpPath id))) ∧
          s.file (Rendezvous.server c) (sunPath (tmpPath id') serverEnd) =
            s.file (Rendezvous.client c) (sunPath (tmpPath id) clientEnd) := by
        intro clientEnd serverEnd
        obtain ⟨site, hsite, hfinds⟩ := h clientEnd serverEnd
        cases hsite
        simpa [clientFinds] using hfinds
      refine .unixSocket (fun clientEnd serverEnd => (hall clientEnd serverEnd).2.symm) ?_
      by_cases hopens : s.opens c = true
      · exact .inl hopens
      · exact .inr fun serverEnd => ((hall 0 serverEnd).1.resolve_left hopens).symm

/-- Both processes of a connection find the same under the same names. -/
structure Surroundings.Common (s : Surroundings) (c : Connection) : Prop where
  file : ∀ path, s.file (Rendezvous.client c) path = s.file (Rendezvous.server c) path
  object : ∀ name, s.object (Rendezvous.client c) name = s.object (Rendezvous.server c) name

/-- And different things under different names. -/
structure Surroundings.Plain (s : Surroundings) (c : Connection) : Prop where
  file : ∀ path path',
    s.file (Rendezvous.client c) path = s.file (Rendezvous.server c) path' ↔ path = path'
  object : ∀ name name',
    s.object (Rendezvous.client c) name = s.object (Rendezvous.server c) name' ↔ name = name'

theorem Surroundings.Plain.common (h : s.Plain c) : s.Common c where
  file path := (h.file path path).mpr rfl
  object name := (h.object name name).mpr rfl

variable {type : ConnectionType} {id id' : StringView}

theorem cStr_tmpPath_short (h : (cStr id).length ≤ 101) : (cStr (tmpPath id)).length < 107 := by
  rw [cStr_tmpPath, length_tmpPath]
  omega

/-- One C string names one site, unless it is too long for `sun_path`. -/
theorem agree_of_names (h : s.Common c) (htype : type ≠ .kNetSocket) (hid : cStr id = cStr id')
    (hlength : type = .kUnixSocket → (cStr id').length ≤ 101) :
    Agree s c ⟨type, id⟩ ⟨type, id'⟩ := by
  have hpath : cStr (tmpPath id) = cStr (tmpPath id') := by
    rw [cStr_tmpPath, cStr_tmpPath, hid]
  cases type with
  | kNetSocket => exact absurd rfl htype
  | kPipe =>
    apply Agree.pipe
    rw [hpath, h.file]
  | kSharedMemory =>
    apply Agree.sharedMemory
    rw [hid, h.object]
  | kUnixSocket =>
    have hshort := cStr_tmpPath_short (hlength rfl)
    have hserver : ∀ e, sunPath (tmpPath id') e = cStr (tmpPath id') := sunPath_short hshort
    have hclient : ∀ e, sunPath (tmpPath id) e = cStr (tmpPath id) :=
      sunPath_short (hpath ▸ hshort)
    refine .unixSocket (fun clientEnd serverEnd => ?_) (.inr fun serverEnd => ?_)
    · rw [hclient, hserver, hpath, h.file]
    · rw [hserver, hpath, h.file]

theorem agree_named_iff (h : s.Plain c) (htype : type ≠ .kNetSocket) :
    Agree s c ⟨type, id⟩ ⟨type, id'⟩ ↔
      cStr id = cStr id' ∧ (type = .kUnixSocket → (cStr id').length ≤ 101) := by
  refine ⟨fun hagree => ?_, fun hnames => agree_of_names h.common htype hnames.1 hnames.2⟩
  have hid : cStr (tmpPath id) = cStr (tmpPath id') ↔ cStr id = cStr id' := by
    rw [cStr_tmpPath, cStr_tmpPath, tmpPath_inj]
  cases hagree with
  | netSocket => exact absurd rfl htype
  | pipe hfile => exact ⟨hid.mp ((h.file _ _).mp hfile), nofun⟩
  | sharedMemory hobject => exact ⟨(h.object _ _).mp hobject, nofun⟩
  | unixSocket hfile _ =>
    have hpaths : ∀ e e', sunPath (tmpPath id) e = sunPath (tmpPath id') e' :=
      fun e e' => (h.file _ _).mp (hfile e e')
    obtain ⟨hclient, _⟩ := sunPath_constant_iff.mp fun e => hpaths e 0
    obtain ⟨hserver, hshort⟩ := sunPath_constant_iff.mp fun e' => (hpaths 0 e').symm
    rw [cStr_tmpPath, length_tmpPath] at hshort
    exact ⟨hid.mp (hclient.trans ((hpaths 0 0).symm.trans hserver.symm)), fun _ => by omega⟩

/-- A name of 102 bytes. -/
example (h : s.Plain c) : ¬ Agree s c ⟨.kUnixSocket, List.replicate 102 97⟩
    ⟨.kUnixSocket, List.replicate 102 97⟩ := by
  intro hagree
  have hnames := (agree_named_iff h (by decide)).mp hagree
  exact absurd (hnames.2 rfl) (by decide)

end Joined

/-! The three connections. -/

theorem forEach_eq_some {α : Type} {f : Connection → Option α} {g : Connection → α} :
    forEach f = some g ↔ ∀ c, f c = some (g c) := by
  unfold forEach
  simp only [Option.bind_eq_bind, Option.bind_eq_some_iff, Option.pure_def, Option.some.injEq]
  constructor
  · rintro ⟨_, hdata, _, hproducer, _, hconsumer, rfl⟩ c
    cases c with
    | consumerProducer => exact hdata
    | measurerProducer => exact hproducer
    | measurerConsumer => exact hconsumer
  · intro h
    refine ⟨_, h _, _, h _, _, h _, ?_⟩
    funext c
    cases c <;> rfl

/-- The ends of every connection agree. -/
def Agreed (analyzer : AnalizerArguments) (consumer : ConsumerArguments)
    (producer : ProducerArguments) (s : Surroundings) : Prop :=
  ∀ c, ∃ client ∈ clientParams consumer producer c, ∃ server ∈ serverParams analyzer consumer c,
    Agree s c client server

section Ends
variable {analyzer : AnalizerArguments} {consumer : ConsumerArguments}
variable {producer : ProducerArguments} {s : Surroundings}
variable {clientEnd serverEnd : Connection → UInt8} {fifo : Connection → Bool} {ends : Ends}

theorem endsOf_eq_some :
    endsOf analyzer consumer producer s clientEnd serverEnd fifo = some ends ↔
      arrangementOf analyzer consumer producer = some ends.toArrangement ∧ ends.fifo = fifo ∧
      ∀ c, ∃ client ∈ clientParams consumer producer c,
        ∃ server ∈ serverParams analyzer consumer c, ∃ site,
          serverSite s c (serverEnd c) server = some site ∧
          clientFinds s c (clientEnd c) client site = some (ends.meets c) := by
  unfold endsOf
  simp only [Option.bind_eq_bind, Option.bind_eq_some_iff, Option.pure_def, Option.some.injEq,
    forEach_eq_some, Option.mem_def]
  constructor
  · rintro ⟨arrangement, harrangement, clients, hclients, servers, hservers, sites, hsites, found,
      hfound, rfl⟩
    exact ⟨harrangement, rfl, fun c =>
      ⟨_, hclients c, _, hservers c, _, hsites c, hfound c⟩⟩
  · rintro ⟨harrangement, rfl, hall⟩
    choose clients hclients servers hservers sites hsites hfound using hall
    exact ⟨_, harrangement, clients, hclients, servers, hservers, sites, hsites, _, hfound, rfl⟩

theorem Agreed.arrangement (h : Agreed analyzer consumer producer s) :
    ∃ arrangement, arrangementOf analyzer consumer producer = some arrangement := by
  choose clients hclients servers hservers _ using h
  unfold arrangementOf
  rw [forEach_eq_some.mpr hclients, forEach_eq_some.mpr hservers]
  exact ⟨_, rfl⟩

theorem Agreed.endsOf_eq (h : Agreed analyzer consumer producer s) {arrangement : Arrangement}
    (harrangement : arrangementOf analyzer consumer producer = some arrangement)
    (clientEnd serverEnd : Connection → UInt8) (fifo : Connection → Bool) :
    endsOf analyzer consumer producer s clientEnd serverEnd fifo =
      some { toArrangement := arrangement, fifo := fifo, meets := fun _ => true } := by
  refine endsOf_eq_some.mpr ⟨harrangement, rfl, fun c => ?_⟩
  obtain ⟨client, hclient, server, hserver, hagree⟩ := h c
  exact ⟨client, hclient, server, hserver, agree_iff_finds.mp hagree (clientEnd c) (serverEnd c)⟩

theorem agreed_of_ends (h : ∀ clientEnd serverEnd, ∃ ends,
      endsOf analyzer consumer producer s clientEnd serverEnd fifo = some ends ∧
      ∀ c, ends.meets c = true) : Agreed analyzer consumer producer s := by
  intro c
  obtain ⟨ends, hends, _⟩ := h (fun _ => 0) fun _ => 0
  obtain ⟨_, _, hall⟩ := endsOf_eq_some.mp hends
  obtain ⟨client, hclient, server, hserver, _⟩ := hall c
  refine ⟨client, hclient, server, hserver, agree_iff_finds.mpr fun clientEnd serverEnd => ?_⟩
  obtain ⟨ends', hends', hmeets⟩ := h (fun _ => clientEnd) fun _ => serverEnd
  obtain ⟨_, _, hall'⟩ := endsOf_eq_some.mp hends'
  obtain ⟨client', hclient', server', hserver', site, hsite, hfinds⟩ := hall' c
  obtain rfl := Option.mem_unique hclient hclient'
  obtain rfl := Option.mem_unique hserver hserver'
  exact ⟨site, hsite, (hmeets c) ▸ hfinds⟩

/-- Whatever the processes do, all of them can still come to run, each client connected to its own
server, as long as no client has fallen asleep for good. -/
def StaysCompletable (system : System) (ends : Ends) : Prop :=
  ∀ fs u, Run (Steps system ends) (start ends) fs u →
    (system.wakes = true ∨ ∀ c, u.asleep c = false) → CanComplete system ends u

theorem staysCompletable_iff {system : System} {ends : Ends} : StaysCompletable system ends ↔
    (∀ c, ends.meets c = true) ∧ system.Permits ends.toArrangement := by
  constructor
  · intro h
    obtain ⟨hmeets, hpermits, _⟩ := (canComplete_iff .start).mp (h [] _ .start (.inr fun _ => rfl))
    exact ⟨hmeets, hpermits⟩
  · rintro ⟨hmeets, hpermits⟩ fs u hrun hwakes
    exact (canComplete_iff hrun).mpr ⟨hmeets, hpermits, hwakes⟩

end Ends

/-! The processes of a test run. -/

def clientSide : Connection → ConnectionSide
  | .consumerProducer => .kConsumerProducerClient
  | .measurerProducer => .kMeasurerProducerClient
  | .measurerConsumer => .kMeasurerConsumerClient

def serverSide : Connection → ConnectionSide
  | .consumerProducer => .kConsumerProducerServer
  | .measurerProducer => .kMeasurerProducerServer
  | .measurerConsumer => .kMeasurerConsumerServer

theorem runTest_port (c : Connection) : ∃ port : cInt.Value,
    hostAndPort (connectionId (clientSide c) .kNetSocket) =
      some ⟨Text.bytes "localhost", port⟩ ∧
    hostAndPort (connectionId (serverSide c) .kNetSocket) = some ⟨[], port⟩ ∧
    htons port ≠ anyPort := by
  cases c <;> exact ⟨_, rfl, rfl, by decide⟩

theorem runTest_agree {s : Surroundings} {c : Connection}
    (hlocal : s.leads c (Text.bytes "localhost") = true) (hcommon : s.Common c)
    (type : ConnectionType) :
    Agree s c ⟨type, connectionId (clientSide c) type⟩
      ⟨type, connectionId (serverSide c) type⟩ := by
  cases type with
  | kNetSocket =>
    obtain ⟨port, hclient, hserver, hport⟩ := runTest_port c
    exact .netSocket hclient hserver hlocal hport rfl
  | kPipe => cases c <;> exact agree_of_names hcommon nofun rfl nofun
  | kSharedMemory => cases c <;> exact agree_of_names hcommon nofun rfl nofun
  | kUnixSocket => cases c <;> exact agree_of_names hcommon nofun rfl fun _ => by decide

/-- One type for all ends, and a size for the connection of the chunks. -/
def runTestArrangement (type : ConnectionType) : Arrangement where
  clientType _ := type
  serverType _ := type
  sized := fun
    | .analyzer => false
    | .consumer => true
    | .producer => true

section Children
variable {chunksSize chunksTotalCount connectionBufferSize : sizeT.Value}
variable {type : ConnectionType} {producerCpu consumerCpu : cInt.Value}
variable {analyzer : AnalizerArguments} {consumer : ConsumerArguments}
variable {producer : ProducerArguments}

theorem runTest_params (hanalyzer : AnalyzerHolds chunksTotalCount type analyzer)
    (hconsumer : ConsumerHolds chunksTotalCount connectionBufferSize type consumerCpu consumer)
    (hproducer : ProducerHolds chunksSize chunksTotalCount connectionBufferSize type producerCpu
      producer) (c : Connection) :
    clientParams consumer producer c = some ⟨type, connectionId (clientSide c) type⟩ ∧
      serverParams analyzer consumer c = some ⟨type, connectionId (serverSide c) type⟩ := by
  cases c with
  | consumerProducer => exact ⟨hproducer.data, hconsumer.data⟩
  | measurerProducer => exact ⟨hproducer.ticks, hanalyzer.producerTicks⟩
  | measurerConsumer => exact ⟨hconsumer.ticks, hanalyzer.consumerTicks⟩

theorem runTest_arrangement (hanalyzer : AnalyzerHolds chunksTotalCount type analyzer)
    (hconsumer : ConsumerHolds chunksTotalCount connectionBufferSize type consumerCpu consumer)
    (hproducer : ProducerHolds chunksSize chunksTotalCount connectionBufferSize type producerCpu
      producer) :
    arrangementOf analyzer consumer producer = some (runTestArrangement type) := by
  have hparams := runTest_params hanalyzer hconsumer hproducer
  unfold arrangementOf
  rw [forEach_eq_some.mpr fun c => (hparams c).1, forEach_eq_some.mpr fun c => (hparams c).2]
  have hsized : sized consumer producer = (runTestArrangement type).sized := by
    funext p
    cases p with
    | analyzer => rfl
    | consumer =>
      unfold sized
      rw [Option.join_eq_some_iff.mp hconsumer.bufferSize]
      rfl
    | producer =>
      unfold sized
      rw [Option.join_eq_some_iff.mp hproducer.bufferSize]
      rfl
  rw [hsized]
  rfl

theorem runTest_completes (hanalyzer : AnalyzerHolds chunksTotalCount type analyzer)
    (hconsumer : ConsumerHolds chunksTotalCount connectionBufferSize type consumerCpu consumer)
    (hproducer : ProducerHolds chunksSize chunksTotalCount connectionBufferSize type producerCpu
      producer) {s : Surroundings} {system : System}
    (hlocal : ∀ c, s.leads c (Text.bytes "localhost") = true) (hcommon : ∀ c, s.Common c)
    (hpermits : system.Permits (runTestArrangement type)) (clientEnd serverEnd : Connection → UInt8)
    (fifo : Connection → Bool) :
    ∃ ends, endsOf analyzer consumer producer s clientEnd serverEnd fifo = some ends ∧
      ∀ fs u, Run (Steps system ends) (start ends) fs u →
        (type = .kSharedMemory → system.wakes = true ∨ ∀ c, u.asleep c = false) →
        CanComplete system ends u := by
  have hagreed : Agreed analyzer consumer producer s := by
    intro c
    obtain ⟨hclient, hserver⟩ := runTest_params hanalyzer hconsumer hproducer c
    exact ⟨_, hclient, _, hserver, runTest_agree (hlocal c) (hcommon c) type⟩
  have harrangement := runTest_arrangement hanalyzer hconsumer hproducer
  refine ⟨_, hagreed.endsOf_eq harrangement clientEnd serverEnd fifo, fun fs u hrun hasleep => ?_⟩
  refine (canComplete_iff hrun).mpr ⟨fun _ => rfl, hpermits, ?_⟩
  by_cases htype : type = .kSharedMemory
  · exact hasleep htype
  · refine .inr fun c => ?_
    cases hsleeps : u.asleep c with
    | false => rfl
    | true => exact absurd (((start_invariant _ _).of_run hrun).asleep c hsleeps).2.1 htype

end Children

/-- Over connections of any type, and with or without FIFOs left behind, the children of a test
run can come to run from every state that their start gets into, where no call throws and no client
of shared memory has fallen asleep for good. -/
theorem run_test_children_meet {arguments : RunTestArguments} {children : List (List StringView)}
    (program : StringView) (h : arguments.modesArguments = some children) :
    ∃ (analyzer consumer producer : List Call) (type : ConnectionType),
      arguments.connectionType = some type ∧
      children.map (fun child => launch (program :: child)) =
        [some (.analyzer, analyzer), some (.consumer, consumer), some (.producer, producer)] ∧
      ∀ (s : Surroundings) (system : System),
        (∀ c, s.leads c (Text.bytes "localhost") = true) → (∀ c, s.Common c) →
        system.Permits (runTestArrangement type) → ∀ clientEnd serverEnd fifo, ∃ ends,
          endsOf (Mode.analyzer.parsed analyzer).fields (Mode.consumer.parsed consumer).fields
            (Mode.producer.parsed producer).fields s clientEnd serverEnd fifo = some ends ∧
          ∀ fs u, Run (Steps system ends) (start ends) fs u →
            (type = .kSharedMemory → system.wakes = true ∨ ∀ c, u.asleep c = false) →
            CanComplete system ends u := by
  obtain ⟨size, count, bufferSize, type, producerCpu, consumerCpu, harguments, hlaunch⟩ :=
    modesArguments_some h
  subst harguments
  refine ⟨_, _, _, type, rfl, hlaunch program, ?_⟩
  intro s system hlocal hcommon hpermits clientEnd serverEnd fifo
  exact runTest_completes analyzer_holds consumer_holds producer_holds hlocal hcommon hpermits
    clientEnd serverEnd fifo

/-- A machine that calls itself localhost, where every path is a file of its own. -/
def oneMachine : Surroundings where
  leads _ host := host == Text.bytes "localhost"
  file _ path := Nat.ofDigits 256 (path.map UInt8.toNat)
  object _ name := Nat.ofDigits 256 (name.map UInt8.toNat)
  opens _ := false

/-- Pipes, with a FIFO left behind for the chunks. -/
theorem run_test_children_meet_sample :
    ∃ (analyzer consumer producer : List Call) (ends : Ends),
      endsOf (Mode.analyzer.parsed analyzer).fields (Mode.consumer.parsed consumer).fields
        (Mode.producer.parsed producer).fields oneMachine (fun _ => 1) (fun _ => 1)
        (fun c => c == .consumerProducer) = some ends ∧
      StaysCompletable quietSystem ends := by
  have hchildren : { sampleRunTest with
      connectionType := ConnectionType.kPipe }.modesArguments = some _ := rfl
  obtain ⟨analyzer, consumer, producer, type, htype, _, hmeet⟩ :=
    run_test_children_meet (Text.bytes "ipc_checker") hchildren
  cases htype
  obtain ⟨ends, hends, hcompletes⟩ := hmeet oneMachine quietSystem (fun _ => rfl)
    (fun _ => ⟨fun _ => rfl, fun _ => rfl⟩) (fun _ _ _ => rfl) (fun _ => 1) (fun _ => 1)
    fun c => c == .consumerProducer
  exact ⟨analyzer, consumer, producer, ends, hends, fun fs u hrun _ => hcompletes fs u hrun nofun⟩

end IpcChecker.CommandLine
