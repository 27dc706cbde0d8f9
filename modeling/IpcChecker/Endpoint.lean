import IpcChecker.Arguments
import IpcChecker.Connectors

/-!
# The endpoint of a network client

From the id of a connection to the addresses that the client passes to `connect`:
`ParseHostAndPort`, the client's constructor and `Connect`, and the loop around it
in `CreateDependencyFromParams`, under any answers of the network.
-/

namespace IpcChecker.Endpoint
open Shared CommandLine
set_option autoImplicit false

/-- Both exceptions of `std::stoi` have its name as their text. -/
def stoi {σ : Type} (str : StringView) : Action σ cInt.Value :=
  match Decimal.stoi cInt str with
  | .ok value => pure value
  | .error _ => throw (.exception "stoi")

structure HostAndPort where
  host : StringView
  port : cInt.Value

def parseHostAndPort {σ : Type} (connectionString : StringView) : Action σ HostAndPort :=
  match Text.find (Text.bytes ":") connectionString with
  | none => throw (.exception "Cannot find colon symbol in connection string")
  | some colonSymbolPos => do
    let port ← stoi (connectionString.drop (colonSymbolPos + 1))
    return ⟨connectionString.take colonSymbolPos, port⟩

/-- The bytes of a `sockaddr_in` that `Connect` fills in. -/
structure SocketAddress where
  sinAddr : List UInt8
  sinPort : List UInt8
  deriving Repr, DecidableEq

/-- The bytes of `htons(port)`: the low 16 bits in network order. -/
def htons (port : cInt.Value) : List UInt8 := ByteOrder.bigEndian 2 (port.val % 2 ^ 16).toNat

/-- How the system answers one `Connect`; `connectLocal` is what it comes to in a client
that has a path instead of a socket address. -/
structure Attempt where
  gethostbyname : StringView → Option (List UInt8)
  connect : SocketAddress → Bool
  connectLocal : StringView → Except Failure Bool

/-- The answers to `socket()` and to the rounds of connecting. -/
structure Network where
  socket : Bool
  attempts : List Attempt

/-- The addresses passed to `connect()` so far. -/
abbrev Connects : Type := List SocketAddress

structure NetSocketClient where
  host : StringView
  port : cInt.Value

namespace NetSocketClient

def new (network : Network) (host : StringView) (port : cInt.Value) :
    Action Connects NetSocketClient := do
  if ¬ network.socket then
    throw (.exception "socket() failed")
  return ⟨host, port⟩

def connect (client : NetSocketClient) (attempt : Attempt) : Action Connects Bool :=
  match attempt.gethostbyname (cStr client.host) with
  | none => throw (.exception "gethostbyname() failed")
  | some server => do
    let servAddr : SocketAddress := ⟨server, htons client.port⟩
    modify (· ++ [servAddr])
    return attempt.connect servAddr

end NetSocketClient

inductive Client where
  | netSocket (client : NetSocketClient)
  | pipe (connectionId : StringView)
  | sharedMemory (connectionId : StringView)
  | unixSocket (connectionId : StringView)

/-- A connection's members of the arguments, as a client or a server takes them. -/
structure ConnectionParams where
  type : ConnectionType
  id : StringView

def createClient (network : Network) (params : ConnectionParams) : Action Connects Client :=
  match params.type with
  | .kNetSocket => do
    let hostAndPort ← parseHostAndPort params.id
    let client ← NetSocketClient.new network hostAndPort.host hostAndPort.port
    return .netSocket client
  | .kPipe => pure (.pipe params.id)
  | .kSharedMemory => pure (.sharedMemory params.id)
  | .kUnixSocket => pure (.unixSocket params.id)

def Client.connect (client : Client) (attempt : Attempt) : Action Connects Bool :=
  let connectLocal (connectionId : StringView) : Action Connects Bool :=
    match attempt.connectLocal connectionId with
    | .ok connected => pure connected
    | .error e => throw e
  match client with
  | .netSocket client => client.connect attempt
  | .pipe connectionId => connectLocal connectionId
  | .sharedMemory connectionId => connectLocal connectionId
  | .unixSocket connectionId => connectLocal connectionId

/-- `while (!client.Connect())`, as long as there are answers: whether it was left. -/
def connectLoop (client : Client) : List Attempt → Action Connects Bool
  | [] => pure false
  | attempt :: attempts => do
    if ← client.connect attempt then
      return true
    connectLoop client attempts

/-- Up to the established connection; its options are set afterwards. -/
def createDependencyFromParams (network : Network) (params : ConnectionParams) :
    Action Connects (Client × Bool) := do
  let client ← createClient network params
  let connected ← connectLoop client network.attempts
  return (client, connected)

/-! What the id may say. -/

/-- The id is a host, the first colon, and a decimal number that fits a port. -/
def IsHostAndPort (id host : StringView) (n : Nat) : Prop :=
  ∃ port, id = host ++ 58 :: port ∧ 58 ∉ host ∧ Decimal.Denotes port n ∧ n ≤ 65535

/-- Wherever the text after the first colon begins with an `int`, this is the whole of it and
fits a port, and the host is a C string. -/
def PortAsWritten (id : StringView) : Prop :=
  ∀ host port, id = host ++ 58 :: port → 58 ∉ host →
    ∀ v : cInt.Value, Decimal.Leading port v.val →
      0 ∉ host ∧ ∃ n, Decimal.Denotes port n ∧ n ≤ 65535

/-- What a run has passed to `connect()`. -/
def connects {α : Type} : EStateM.Result Failure Connects α → Connects
  | .ok _ log => log
  | .error _ log => log

/-- The run uses the host `host` and the port `n` and nothing else, and only the network
makes it fail. -/
structure EndpointUsed {α : Type} (network : Network) (host : StringView) (n : Nat)
    (result : EStateM.Result Failure Connects α) : Prop where
  addresses : ∀ address ∈ connects result, address.sinPort = ByteOrder.bigEndian 2 n ∧
    ∃ attempt ∈ network.attempts, attempt.gethostbyname host = some address.sinAddr
  first : network.socket = true → ∀ attempt later server,
    network.attempts = attempt :: later → attempt.gethostbyname host = some server →
      (connects result).head? = some ⟨server, ByteOrder.bigEndian 2 n⟩
  failed : ∀ e log, result = .error e log → network.socket = false ∨
    ∃ attempt ∈ network.attempts, attempt.gethostbyname host = none

/-- The endpoint is the one written, and every other id ends in an exception. -/
def ExactEndpoint (network : Network) (id : StringView)
    (result : EStateM.Result Failure Connects (Client × Bool)) : Prop :=
  (∀ host n, IsHostAndPort id host n → EndpointUsed network host n result) ∧
    ((¬ ∃ host n, IsHostAndPort id host n) → ∃ what, result = .error (.exception what) [])

section Parsing
variable {σ : Type} {host port id : StringView}

theorem find_colon (h : 58 ∉ host) :
    Text.find (Text.bytes ":") (host ++ 58 :: port) = some host.length := by
  have hword : host ++ 58 :: port = host ++ [58] ++ port := by simp
  rw [hword]
  exact Text.find_append 58 [] port h

theorem split_unique {host' port' : StringView} (h : 58 ∉ host) (h' : 58 ∉ host')
    (heq : host ++ 58 :: port = host' ++ 58 :: port') : host = host' ∧ port = port' := by
  have hfind : Text.find (Text.bytes ":") (host ++ 58 :: port) = some host.length := find_colon h
  rw [heq, find_colon h'] at hfind
  obtain ⟨hhost, hport⟩ := List.append_inj heq (Option.some.inj hfind).symm
  exact ⟨hhost, List.tail_eq_of_cons_eq hport⟩

theorem drop_colon : (host ++ 58 :: port).drop (host.length + 1) = port := by
  rw [← List.drop_drop, List.drop_left]
  rfl

theorem parseHostAndPort_ok {v : cInt.Value} (h : 58 ∉ host) (hport : Decimal.Leading port v.val) :
    (parseHostAndPort (host ++ 58 :: port) : Action σ HostAndPort) = pure ⟨host, v⟩ := by
  unfold parseHostAndPort
  rw [find_colon h]
  simp only [drop_colon, List.take_left]
  unfold stoi
  rw [Decimal.stoi_iff.mpr hport]
  rfl

/-- Without a colon, or without an `int` after it, the id is rejected. -/
theorem parseHostAndPort_throws (h : ∀ host port, id = host ++ 58 :: port → 58 ∉ host →
      ∀ v : cInt.Value, ¬ Decimal.Leading port v.val) :
    ∃ what, (parseHostAndPort id : Action σ HostAndPort) = throw (.exception what) := by
  by_cases hcolon : 58 ∈ id
  · obtain ⟨host, port, rfl, hhost⟩ := List.eq_append_cons_of_mem hcolon
    refine ⟨"stoi", ?_⟩
    unfold parseHostAndPort
    rw [find_colon hhost]
    simp only [drop_colon]
    unfold stoi
    cases hread : Decimal.stoi cInt port with
    | ok v => exact absurd (Decimal.stoi_iff.mp hread) (h host port rfl hhost v)
    | error e => rfl
  · have hfind : Text.find (Text.bytes ":") id = none := Text.find_eq_none hcolon
    refine ⟨"Cannot find colon symbol in connection string", ?_⟩
    unfold parseHostAndPort
    rw [hfind]

end Parsing

theorem leading_of_denotes {port : StringView} {n : Nat} (h : Decimal.Denotes port n) :
    Decimal.Leading port n := by
  have hleading := @Decimal.Leading.intro [] [] port [] false n nofun .none h nofun
  rwa [List.nil_append, List.nil_append, List.append_nil] at hleading

theorem exists_port {n : Nat} (h : n ≤ 65535) : ∃ v : cInt.Value, v.val = n := by
  refine ⟨⟨n, ?_⟩, rfl⟩
  change (-2 ^ 31 : Int) ≤ n ∧ (n : Int) ≤ 2 ^ 31 - 1
  omega

theorem htons_port {n : Nat} (h : n ≤ 65535) (v : cInt.Value) (hv : v.val = n) :
    htons v = ByteOrder.bigEndian 2 n := by
  have hlow : (v.val % 2 ^ 16).toNat = n := by
    rw [hv]
    omega
  unfold htons
  rw [hlow]

theorem cStr_eq_self_iff {s : StringView} : cStr s = s ↔ 0 ∉ s := by
  unfold cStr
  rw [List.takeWhile_eq_self_iff]
  simp only [decide_not, Bool.not_eq_eq_eq_not, Bool.not_true, decide_eq_false_iff_not]
  constructor
  · exact fun h hmem => h 0 hmem rfl
  · exact fun h b hb heq => h (heq ▸ hb)

section Loop
variable {client : NetSocketClient}

theorem connect_run (attempt : Attempt) (log : Connects) :
    (client.connect attempt).run log = match attempt.gethostbyname (cStr client.host) with
      | none => .error (.exception "gethostbyname() failed") log
      | some server => .ok (attempt.connect ⟨server, htons client.port⟩)
          (log ++ [⟨server, htons client.port⟩]) := by
  unfold NetSocketClient.connect
  cases attempt.gethostbyname (cStr client.host) with
  | none => rfl
  | some server => rfl

/-- What one round of the loop does, by the answers of the name look-up and of `connect`. -/
theorem connectLoop_cons (attempt : Attempt) (attempts : List Attempt) (log : Connects) :
    (connectLoop (.netSocket client) (attempt :: attempts)).run log =
      match attempt.gethostbyname (cStr client.host) with
      | none => .error (.exception "gethostbyname() failed") log
      | some server =>
        if attempt.connect ⟨server, htons client.port⟩ then
          .ok true (log ++ [⟨server, htons client.port⟩])
        else (connectLoop (.netSocket client) attempts).run
          (log ++ [⟨server, htons client.port⟩]) := by
  have hround : (client.connect attempt).run log = _ := connect_run attempt log
  rw [connectLoop]
  cases hname : attempt.gethostbyname (cStr client.host) with
  | none =>
    rw [hname] at hround
    exact run_bind_error hround
  | some server =>
    rw [hname] at hround
    refine (run_bind_ok hround).trans ?_
    by_cases hconnect : attempt.connect ⟨server, htons client.port⟩ = true
    · rw [if_pos hconnect]
      simp only [hconnect]
      rfl
    · rw [if_neg hconnect]
      simp only [hconnect]
      rfl

/-- Whatever the network answers, the loop keeps to the client's host and port. -/
theorem connectLoop_spec : ∀ (attempts : List Attempt) (log : Connects),
    ∃ more, connects ((connectLoop (.netSocket client) attempts).run log) = log ++ more ∧
      (∀ address ∈ more, address.sinPort = htons client.port ∧
        ∃ attempt ∈ attempts, attempt.gethostbyname (cStr client.host) = some address.sinAddr) ∧
      ∀ e after, (connectLoop (.netSocket client) attempts).run log = .error e after →
        ∃ attempt ∈ attempts, attempt.gethostbyname (cStr client.host) = none
  | [], log => ⟨[], (List.append_nil log).symm, nofun, nofun⟩
  | attempt :: attempts, log => by
    rw [connectLoop_cons]
    cases hname : attempt.gethostbyname (cStr client.host) with
    | none =>
      refine ⟨[], (List.append_nil log).symm, nofun, fun e after _ => ?_⟩
      exact ⟨attempt, List.mem_cons_self, hname⟩
    | some server =>
      have hfirst : ∃ a ∈ attempt :: attempts, a.gethostbyname (cStr client.host) = some server :=
        ⟨attempt, List.mem_cons_self, hname⟩
      simp only
      split
      · refine ⟨[⟨server, htons client.port⟩], rfl, fun address haddress => ?_, nofun⟩
        obtain rfl := List.mem_singleton.mp haddress
        exact ⟨rfl, hfirst⟩
      · obtain ⟨more, hlog, hmore, herror⟩ :=
          connectLoop_spec attempts (log ++ [⟨server, htons client.port⟩])
        refine ⟨⟨server, htons client.port⟩ :: more, ?_, fun address haddress => ?_, ?_⟩
        · rw [hlog, List.append_assoc, List.singleton_append]
        · rcases List.mem_cons.mp haddress with rfl | hlater
          · exact ⟨rfl, hfirst⟩
          · obtain ⟨hport, a, ha, hserver⟩ := hmore address hlater
            exact ⟨hport, a, List.mem_cons_of_mem attempt ha, hserver⟩
        · intro e after hrun
          obtain ⟨a, ha, hnone⟩ := herror e after hrun
          exact ⟨a, List.mem_cons_of_mem attempt ha, hnone⟩

theorem connectLoop_first {attempt : Attempt} {server : List UInt8} (later : List Attempt)
    (hname : attempt.gethostbyname (cStr client.host) = some server) :
    (connects ((connectLoop (.netSocket client) (attempt :: later)).run [])).head? =
      some ⟨server, htons client.port⟩ := by
  rw [connectLoop_cons, hname]
  simp only
  split
  · rfl
  · obtain ⟨more, hlog, _⟩ := connectLoop_spec later ([] ++ [⟨server, htons client.port⟩])
    rw [hlog]
    rfl

end Loop

section Dependency
variable {host port id : StringView} {v : cInt.Value} (network : Network)

theorem createDependencyFromParams_run (h : 58 ∉ host) (hport : Decimal.Leading port v.val) :
    (createDependencyFromParams network ⟨.kNetSocket, host ++ 58 :: port⟩).run [] =
      if network.socket then
        match (connectLoop (.netSocket ⟨host, v⟩) network.attempts).run [] with
        | .ok connected log => .ok (.netSocket ⟨host, v⟩, connected) log
        | .error e log => .error e log
      else .error (.exception "socket() failed") [] := by
  unfold createDependencyFromParams createClient NetSocketClient.new
  simp only [parseHostAndPort_ok h hport, pure_bind]
  cases hsocket : network.socket with
  | false => rfl
  | true =>
    change (connectLoop (.netSocket ⟨host, v⟩) network.attempts >>= fun connected =>
      pure (Client.netSocket ⟨host, v⟩, connected)).run [] = _
    rw [EStateM.run_bind, if_pos rfl]
    cases (connectLoop (.netSocket ⟨host, v⟩) network.attempts).run [] with
    | ok connected log => rfl
    | error e log => rfl

theorem endpointUsed {n : Nat} (h : 58 ∉ host) (hzero : 0 ∉ host) (hport : Decimal.Denotes port n)
    (hn : n ≤ 65535) : EndpointUsed network host n
      ((createDependencyFromParams network ⟨.kNetSocket, host ++ 58 :: port⟩).run []) := by
  obtain ⟨v, hv⟩ := exists_port hn
  rw [createDependencyFromParams_run network h (hv ▸ leading_of_denotes hport)]
  cases hsocket : network.socket with
  | false => exact ⟨nofun, fun hs => absurd (hsocket.symm.trans hs) nofun, fun _ _ _ => .inl hsocket⟩
  | true =>
    have hspec := @connectLoop_spec ⟨host, v⟩ network.attempts []
    have hfirst := @connectLoop_first ⟨host, v⟩
    simp only [cStr_eq_self_iff.mpr hzero, htons_port hn v hv, List.nil_append] at hspec hfirst
    obtain ⟨more, hlog, hmore, herror⟩ := hspec
    rw [if_pos rfl]
    constructor
    · intro address haddress
      apply hmore
      rw [← hlog]
      split at haddress
      · rename_i hrun
        rwa [hrun]
      · rename_i hrun
        rwa [hrun]
    · intro _ attempt later server hattempts hname
      have hhead := hfirst later hname
      rw [← hattempts] at hhead
      split
      · rename_i hrun
        rwa [hrun] at hhead
      · rename_i hrun
        rwa [hrun] at hhead
    · intro e log hresult
      split at hresult
      · cases hresult
      · rename_i hrun
        exact .inr (herror _ _ hrun)

/-- An id that is cut into a host and an `int` is not rejected: where the name is found and
`connect` succeeds, the client ends up connected. -/
theorem endpoint_reached {host port : StringView} {v : cInt.Value} (h : 58 ∉ host)
    (hport : Decimal.Leading port v.val) :
    (createDependencyFromParams ⟨true, [⟨some, fun _ => true, fun _ => .ok true⟩]⟩
        ⟨.kNetSocket, host ++ 58 :: port⟩).run [] =
      .ok (.netSocket ⟨host, v⟩, true) [⟨cStr host, htons v⟩] := by
  rw [createDependencyFromParams_run _ h hport]
  rfl

/-- The endpoint is exact for every network exactly when the port is read as written. -/
theorem exactEndpoint_iff :
    (∀ network, ExactEndpoint network id
      ((createDependencyFromParams network ⟨.kNetSocket, id⟩).run [])) ↔ PortAsWritten id := by
  constructor
  · rintro hexact host port rfl hhost v hport
    obtain ⟨hgood, hbad⟩ := hexact ⟨true, [⟨some, fun _ => true, fun _ => .ok true⟩]⟩
    rw [endpoint_reached hhost hport] at hgood hbad
    by_cases hid : ∃ host' n, IsHostAndPort (host ++ 58 :: port) host' n
    · obtain ⟨host', n, hwritten⟩ := hid
      have hfirst := (hgood host' n hwritten).first rfl _ _ host' rfl rfl
      obtain ⟨port', heq, hhost', hdenotes, hn⟩ := hwritten
      obtain ⟨rfl, rfl⟩ := split_unique hhost hhost' heq
      have haddress := congrArg SocketAddress.sinAddr (Option.some.inj hfirst)
      exact ⟨cStr_eq_self_iff.mp haddress, n, hdenotes, hn⟩
    · obtain ⟨what, herror⟩ := hbad hid
      cases herror
  · intro hwritten network
    constructor
    · rintro host n ⟨port, rfl, hhost, hdenotes, hn⟩
      obtain ⟨v, hv⟩ := exists_port hn
      have hzero := (hwritten host port rfl hhost v (hv ▸ leading_of_denotes hdenotes)).1
      exact endpointUsed network hhost hzero hdenotes hn
    · intro hother
      have hthrows : ∀ host port, id = host ++ 58 :: port → 58 ∉ host →
          ∀ v : cInt.Value, ¬ Decimal.Leading port v.val := by
        intro host port heq hhost v hport
        obtain ⟨_, n, hdenotes, hn⟩ := hwritten host port heq hhost v hport
        exact hother ⟨host, n, port, heq, hhost, hdenotes, hn⟩
      obtain ⟨what, hparse⟩ := parseHostAndPort_throws (σ := Connects) hthrows
      refine ⟨what, ?_⟩
      unfold createDependencyFromParams createClient
      simp only [hparse]
      rfl

end Dependency

end IpcChecker.Endpoint
