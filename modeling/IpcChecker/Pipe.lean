import IpcChecker.Connection
import IpcChecker.Shared.Runs

/-!
# Strings through the pipe

Both ends put the FIFO in packet mode: a write is queued as packets of at most
`PIPE_BUF` bytes and a read takes one packet. A message is received whole exactly
when its packed form is one packet; a longer one is torn, and what the receiver
takes for its rest is whatever the buffer held before.
-/

namespace IpcChecker
open Shared
set_option autoImplicit false

/-- `PIPE_BUF`. -/
def kPipeBuf : Nat := 4096

/-- The packets a write of these bytes is queued as. -/
def packets (bytes : List UInt8) : List (List UInt8) :=
  if _h : bytes = [] then [] else bytes.take kPipeBuf :: packets (bytes.drop kPipeBuf)
termination_by bytes.length
decreasing_by
  have hpos := List.length_pos_iff.mpr _h
  rw [List.length_drop]
  unfold kPipeBuf
  omega

/-- `results` lists what the completed rounds of the receiving end gave. -/
structure PipeSystem where
  client : Buffer
  server : Buffer
  unsent : List StdString
  fifo : List (List UInt8)
  results : List (Except Failure StdString)

inductive PipeEvent where
  | send
  | receive
  deriving Repr, DecidableEq

namespace PipeSystem

def initial (client server : Buffer) (messages : List StdString) : PipeSystem where
  client := client
  server := server
  unsent := messages
  fifo := []
  results := []

variable (host : Endianness) (alloc : UInt64 → Bool)

/-- Reset, Pack and `PipeClient::Send`, whose write takes everything. -/
def sendNext (s : PipeSystem) : Option PipeSystem :=
  match s.unsent with
  | [] => none
  | message :: unsent =>
    match (sendRound (Packer.localPacker.serializeString host message)).run s.client with
    | .ok bytes client => some { s with client, unsent, fifo := s.fifo ++ packets bytes }
    | .error _ client => some { s with client, unsent }

/-- Reset, `PipeServer::Receive` and Unpack; the read blocks on an empty FIFO. -/
def receiveNext (s : PipeSystem) : Option PipeSystem :=
  match s.fifo with
  | [] => none
  | packet :: fifo =>
    match (receiveRound (Packer.localPacker.deserializeString host alloc) (.bytes packet)).run
      s.server with
    | .ok message server => some { s with server, fifo, results := s.results ++ [.ok message] }
    | .error e server => some { s with server, fifo, results := s.results ++ [.error e] }

def step (s : PipeSystem) : PipeEvent → Option PipeSystem
  | .send => s.sendNext host
  | .receive => s.receiveNext host alloc

def Steps (s : PipeSystem) (e : PipeEvent) (s' : PipeSystem) : Prop :=
  s.step host alloc e = some s'

/-- The `k`-th round gave the `k`-th message, and no such round waits for ever. -/
structure Integrity (messages : List StdString) (s : PipeSystem) : Prop where
  results : ∀ (k : Nat) (message : StdString) (result : Except Failure StdString),
    messages[k]? = some message → s.results[k]? = some result → result = .ok message
  progress : s.unsent = [] → s.results.length < messages.length → s.fifo ≠ []

theorem packets_single {bytes : List UInt8} (hne : bytes ≠ []) (hfit : bytes.length ≤ kPipeBuf) :
    packets bytes = [bytes] := by
  rw [packets, dif_neg hne, List.take_of_length_le hfit, List.drop_of_length_le hfit, packets,
    dif_pos rfl]

theorem packets_head {bytes : List UInt8} (hne : bytes ≠ []) :
    ∃ rest, packets bytes = bytes.take kPipeBuf :: rest := by
  rw [packets, dif_neg hne]
  exact ⟨_, rfl⟩

theorem packedBytes_ne_nil (message : StdString) : packedBytes host message ≠ [] := by
  intro hnil
  have hlength := packedBytes_length host message
  rw [hnil, List.length_nil] at hlength
  omega

/-- A message that fits one packet is queued as that packet. -/
theorem packets_packedBytes {message : StdString} (hfit : 8 + message.bytes.length ≤ kPipeBuf) :
    packets (packedBytes host message) = [packedBytes host message] :=
  packets_single (packedBytes_ne_nil host message) (packedBytes_length host message ▸ hfit)

theorem packed_le_of_packet {message : StdString} (hfit : 8 + message.bytes.length ≤ kPipeBuf) :
    8 + message.bytes.length ≤ 10000 := by
  unfold kPipeBuf at hfit
  omega

section Rounds
variable {s : PipeSystem} {message : StdString}

theorem sendNext_eq {unsent : List StdString} (hclient : s.client.Valid)
    (hunsent : s.unsent = message :: unsent) (hpacked : 8 + message.bytes.length ≤ 10000) :
    ∃ client, client.Valid ∧ s.sendNext host =
      some { s with client, unsent, fifo := s.fifo ++ packets (packedBytes host message) } := by
  have hwrites : Buffer.Writes (Packer.localPacker.serializeString host message)
      (packedBytes host message) := Packer.serialize_writes host .localPacker (.string message)
  have hfit : (packedBytes host message).length ≤ 10000 := packedBytes_length host message ▸ hpacked
  obtain ⟨client, hrun, hvalid⟩ := sendRound_writes hwrites hfit hclient
  refine ⟨client, hvalid, ?_⟩
  unfold sendNext
  rw [hunsent]
  dsimp only
  rw [hrun]

/-- A packet that is a whole message is unpacked, and only its bytes are overwritten. -/
theorem receiveNext_eq {fifo : List (List UInt8)} (hserver : s.server.Valid)
    (hfifo : s.fifo = packedBytes host message :: fifo) (hfit : 8 + message.bytes.length ≤ kPipeBuf)
    (halloc : alloc message.size = true) :
    ∃ server, server.Valid ∧ server.buf = s.server.buf ∧
      (∀ a, s.server.buf.toNat + kPipeBuf ≤ a → server.memory a = s.server.memory a) ∧
      s.receiveNext host alloc =
        some { s with server, fifo, results := s.results ++ [.ok message] } := by
  have hlength := packedBytes_length host message
  unfold kPipeBuf at hfit
  obtain ⟨hrun, hvalid⟩ := receiveRound_reads
    (Packer.deserializeString_reads host .localPacker alloc message halloc)
    (by rw [Packer.fieldBytes_length, Field.encodedSize]; omega) hserver
  refine ⟨_, hvalid, rfl, ?_, ?_⟩
  · intro a ha
    unfold kPipeBuf at ha
    apply Memory.store_outside _ _ _ (Or.inr _)
    change s.server.buf.toNat + (packedBytes host message).length ≤ a
    omega
  · unfold receiveNext
    rw [hfifo]
    dsimp only [packedBytes]
    rw [hrun]

end Rounds

/-- The messages are the received ones, those in the FIFO and the unsent ones, in this order. -/
structure Intact (messages : List StdString) (s : PipeSystem) : Prop where
  client : s.client.Valid
  server : s.server.Valid
  order : ∃ received inFlight : List StdString, messages = received ++ inFlight ++ s.unsent ∧
    s.results = received.map .ok ∧ s.fifo = inFlight.map (packedBytes host)

section Whole
variable {host} {alloc} {messages : List StdString} {s s' : PipeSystem}

theorem intact_send (hfit : ∀ m ∈ messages, 8 + m.bytes.length ≤ kPipeBuf)
    (h : Intact host messages s) (hstep : s.sendNext host = some s') :
    Intact host messages s' := by
  obtain ⟨received, inFlight, hmessages, hresults, hfifo⟩ := h.order
  cases hunsent : s.unsent with
  | nil =>
    unfold sendNext at hstep
    rw [hunsent] at hstep
    cases hstep
  | cons message unsent =>
    have hmem : message ∈ messages := by
      rw [hmessages, hunsent]
      exact List.mem_append_right _ List.mem_cons_self
    have hsize := hfit message hmem
    obtain ⟨client, hvalid, heq⟩ := sendNext_eq host h.client hunsent (packed_le_of_packet hsize)
    rw [heq] at hstep
    cases hstep
    refine { client := hvalid, server := h.server, order := ?_ }
    refine ⟨received, inFlight ++ [message], ?_, hresults, ?_⟩
    · rw [hmessages, hunsent]
      simp
    · rw [hfifo, packets_packedBytes host hsize, List.map_append]
      rfl

theorem intact_receive (halloc : ∀ m ∈ messages, alloc m.size = true)
    (hfit : ∀ m ∈ messages, 8 + m.bytes.length ≤ kPipeBuf)
    (h : Intact host messages s) (hstep : s.receiveNext host alloc = some s') :
    Intact host messages s' := by
  obtain ⟨received, inFlight, hmessages, hresults, hfifo⟩ := h.order
  cases inFlight with
  | nil =>
    unfold receiveNext at hstep
    rw [hfifo] at hstep
    cases hstep
  | cons message inFlight =>
    have hmem : message ∈ messages := by
      rw [hmessages]
      simp
    obtain ⟨server, hvalid, _, _, heq⟩ := receiveNext_eq host alloc h.server
      (hfifo.trans List.map_cons) (hfit message hmem) (halloc message hmem)
    rw [heq] at hstep
    cases hstep
    refine { client := h.client, server := hvalid, order := ?_ }
    refine ⟨received ++ [message], inFlight, ?_, ?_, rfl⟩
    · rw [hmessages]
      simp
    · rw [hresults, List.map_append]
      rfl

theorem Intact.integrity (h : Intact host messages s) : Integrity messages s := by
  obtain ⟨received, inFlight, hmessages, hresults, hfifo⟩ := h.order
  constructor
  · intro k message result hmessage hresult
    rw [hresults, List.getElem?_map] at hresult
    obtain ⟨message', hreceived, rfl⟩ := Option.map_eq_some_iff.mp hresult
    have hlt := (List.getElem?_eq_some_iff.mp hreceived).1
    rw [hmessages, List.append_assoc, List.getElem?_append_left hlt, hreceived] at hmessage
    cases hmessage
    rfl
  · intro hunsent hlt hempty
    rw [hfifo, List.map_eq_nil_iff] at hempty
    rw [hmessages, hresults, hunsent, hempty] at hlt
    simp at hlt

theorem Intact.of_run (halloc : ∀ m ∈ messages, alloc m.size = true)
    (hfit : ∀ m ∈ messages, 8 + m.bytes.length ≤ kPipeBuf) (h : Intact host messages s)
    {events : List PipeEvent} (hrun : Run (Steps host alloc) s events s') :
    Intact host messages s' := by
  apply hrun.invariant h
  intro t e u ht hstep
  cases e with
  | send => exact intact_send hfit ht hstep
  | receive => exact intact_receive halloc hfit ht hstep

end Whole

section Torn
variable {host} {alloc} {torn : StdString} {rest : List StdString}

/-- The messages before the first torn one go through, one at a time, and leave the bytes
behind the first packet of the receiver's buffer as they were. -/
theorem whole_prefix_run (good : List StdString) : ∀ s : PipeSystem,
    s.client.Valid → s.server.Valid → s.unsent = good ++ torn :: rest → s.fifo = [] →
    (∀ m ∈ good, 8 + m.bytes.length ≤ kPipeBuf ∧ alloc m.size = true) →
    ∃ events t, Run (Steps host alloc) s events t ∧ t.client.Valid ∧ t.server.Valid ∧
      t.unsent = torn :: rest ∧ t.fifo = [] ∧ t.results = s.results ++ good.map .ok ∧
      t.server.buf = s.server.buf ∧ ∀ a, s.server.buf.toNat + kPipeBuf ≤ a →
        t.server.memory a = s.server.memory a := by
  induction good with
  | nil =>
    intro s hclient hserver hunsent hfifo _
    exact ⟨[], s, .start, hclient, hserver, hunsent, hfifo, by simp, rfl, fun _ _ => rfl⟩
  | cons message good ih =>
    intro s hclient hserver hunsent hfifo hgood
    obtain ⟨hsize, halloc⟩ := hgood message List.mem_cons_self
    obtain ⟨client, hclient', hsend⟩ :=
      sendNext_eq host hclient hunsent (packed_le_of_packet hsize)
    rw [hfifo, packets_packedBytes host hsize] at hsend
    let sent : PipeSystem :=
      { s with client, unsent := good ++ torn :: rest, fifo := [packedBytes host message] }
    have hfirst : Steps host alloc s .send sent := hsend
    obtain ⟨server, hserver', hbuf, hkept, hreceive⟩ := receiveNext_eq host alloc (s := sent)
      hserver rfl hsize halloc
    let received : PipeSystem :=
      { sent with server, fifo := [], results := s.results ++ [.ok message] }
    have hsecond : Steps host alloc sent .receive received := hreceive
    obtain ⟨events, t, hrun, hc, hv, hu, hf, hr, hb, hk⟩ := ih received hclient' hserver' rfl rfl
      fun m hm => hgood m (List.mem_cons_of_mem _ hm)
    refine ⟨_, t, ((Run.single hfirst).step hsecond).trans hrun, hc, hv, hu, hf, ?_,
      hb.trans hbuf, ?_⟩
    · rw [hr, List.append_assoc]
      rfl
    · intro a ha
      have hsame := hk a (by change server.buf.toNat + _ ≤ a; rw [hbuf]; exact ha)
      exact hsame.trans (hkept a ha)

variable (host torn) in
theorem packedBytes_take : (packedBytes host torn).take kPipeBuf =
    Packer.scalarBytes host .localPacker torn.bytes.length ++ torn.bytes.take (kPipeBuf - 8) := by
  have hscalar := Packer.scalarBytes_length host .localPacker torn.bytes.length
  change ((_ : List UInt8) ++ torn.bytes).take kPipeBuf = _
  rw [List.take_append, hscalar, List.take_of_length_le (by rw [hscalar]; decide)]

/-- The first packet of a longer message is unpacked with the buffer's old bytes behind it. -/
theorem torn_round {b : Buffer} (hb : b.Valid) (hpacked : 8 + torn.bytes.length ≤ 10000)
    (hlong : kPipeBuf < 8 + torn.bytes.length) (halloc : alloc torn.size = true) :
    ∃ message b', (receiveRound (Packer.localPacker.deserializeString host alloc)
        (.bytes ((packedBytes host torn).take kPipeBuf))).run b = .ok message b' ∧
      message.bytes[kPipeBuf - 8]? = some (b.memory (b.buf.toNat + kPipeBuf)) := by
  have hend : b.bufEnd.toNat = b.buf.toNat + 10000 := hb.end_eq
  have hbuf : kPipeBuf = 4096 := rfl
  have hpacket : ((packedBytes host torn).take kPipeBuf).length = kPipeBuf := by
    rw [List.length_take, packedBytes_length]
    omega
  -- what the buffer holds behind the packet is taken for the rest of the string
  let filled := b.reset.fill ((packedBytes host torn).take kPipeBuf)
  let stale := Memory.slice filled.memory (b.buf.toNat + kPipeBuf) (8 + torn.bytes.length - kPipeBuf)
  have hlength : (torn.bytes.take (kPipeBuf - 8) ++ stale).length = torn.bytes.length := by
    rw [List.length_append, List.length_take, Memory.slice_length]
    omega
  let message : StdString :=
    ⟨torn.bytes.take (kPipeBuf - 8) ++ stale, hlength ▸ torn.length_lt⟩
  have hmessage : packedBytes host message = (packedBytes host torn).take kPipeBuf ++ stale := by
    rw [packedBytes_take, ← hlength, List.append_assoc]
    rfl
  have hsplit : (packedBytes host message).length =
      kPipeBuf + (8 + torn.bytes.length - kPipeBuf) := by
    rw [hmessage, List.length_append, hpacket, Memory.slice_length]
  have hfront : Memory.slice filled.memory b.buf.toNat kPipeBuf =
      (packedBytes host torn).take kPipeBuf := by
    conv_lhs => rw [← hpacket]
    exact Memory.slice_store_same _ _ _
  have hreadable : filled.Readable (packedBytes host message) := by
    constructor
    · change Memory.slice filled.memory b.buf.toNat _ = _
      rw [hsplit, Memory.slice_add, hfront, hmessage]
    · change b.buf.toNat + _ ≤ b.bufEnd.toNat
      rw [hsplit]
      omega
  have hsize : message.size = torn.size := congrArg UInt64.ofNat hlength
  have hrun := Packer.deserializeString_reads host .localPacker alloc message (hsize ▸ halloc)
    filled (Buffer.fill_valid hb.reset _) hreadable
  refine ⟨message, _, (receiveRound_bytes _ _ b).trans hrun, ?_⟩
  have htake : (torn.bytes.take (kPipeBuf - 8)).length = kPipeBuf - 8 := by
    rw [List.length_take]
    omega
  have hkept : filled.memory (b.buf.toNat + kPipeBuf) = b.memory (b.buf.toNat + kPipeBuf) :=
    Memory.store_outside _ _ _ (Or.inr (by rw [hpacket]; exact Nat.le_refl _))
  change (torn.bytes.take (kPipeBuf - 8) ++ stale)[kPipeBuf - 8]? = _
  rw [List.getElem?_append_right (by rw [htake]), htake, Nat.sub_self, ← hkept]
  have hpos : 0 < stale.length := by
    rw [Memory.slice_length]
    omega
  rw [List.getElem?_eq_getElem hpos]
  exact congrArg some (Memory.slice_getElem _ _ _ 0 hpos)

variable (host) in
/-- With another byte behind the first packet's place, the torn message comes out wrong. -/
theorem torn_run {good messages : List StdString} (hmessages : messages = good ++ torn :: rest)
    (hgood : ∀ m ∈ good, 8 + m.bytes.length ≤ kPipeBuf)
    (hpacked : 8 + torn.bytes.length ≤ 10000) (hlong : kPipeBuf < 8 + torn.bytes.length)
    (halloc : ∀ m ∈ messages, alloc m.size = true) {other : UInt8}
    (hother : torn.bytes[kPipeBuf - 8]? ≠ some other) {buffer : Buffer} (hvalid : buffer.Valid)
    (hbuffer : buffer.memory (buffer.buf.toNat + kPipeBuf) = other) :
    ∃ events t, Run (Steps host alloc) (initial buffer buffer messages) events t ∧
      ¬ Integrity messages t := by
  have hall : ∀ m ∈ good, 8 + m.bytes.length ≤ kPipeBuf ∧ alloc m.size = true := by
    intro m hm
    exact ⟨hgood m hm, halloc m (by rw [hmessages]; exact List.mem_append_left _ hm)⟩
  obtain ⟨events, t, hrun, hclient, hserver, hunsent, hfifo, hresults, hbuf, hkept⟩ :=
    whole_prefix_run good (initial buffer buffer messages) hvalid hvalid hmessages rfl hall
  obtain ⟨client, _, hsend⟩ := sendNext_eq host hclient hunsent hpacked
  obtain ⟨more, hmore⟩ := packets_head (packedBytes_ne_nil host torn)
  rw [hfifo, hmore] at hsend
  let sent : PipeSystem :=
    { t with client, unsent := rest, fifo := (packedBytes host torn).take kPipeBuf :: more }
  have hfirst : Steps host alloc t .send sent := hsend
  obtain ⟨message, server, hround, hbyte⟩ := torn_round hserver hpacked hlong
    (halloc torn (by rw [hmessages]; exact List.mem_append_right _ List.mem_cons_self))
  let u : PipeSystem :=
    { sent with server, fifo := more, results := t.results ++ [.ok message] }
  have hsecond : Steps host alloc sent .receive u := by
    unfold Steps step receiveNext
    dsimp only [sent]
    rw [hround]
  refine ⟨_, u, (hrun.step hfirst).step hsecond, ?_⟩
  intro hintegrity
  have hlast : u.results[good.length]? = some (.ok message) := by
    change (t.results ++ [.ok message])[good.length]? = _
    rw [hresults]
    simp [initial]
  have htorn : messages[good.length]? = some torn := by
    rw [hmessages]
    simp
  cases hintegrity.results _ _ _ htorn hlast
  rw [hbuf, hkept _ (Nat.le_refl _)] at hbyte
  exact hother (hbuffer ▸ hbyte)

end Torn

/-- In every run over the pipe, whatever the buffers held before, the `k`-th round gives the
`k`-th message, exactly when every packed message is one packet. -/
theorem integrity_iff_single_packets (host : Endianness) (alloc : UInt64 → Bool)
    (messages : List StdString) (hpacked : ∀ m ∈ messages, 8 + m.bytes.length ≤ 10000)
    (halloc : ∀ m ∈ messages, alloc m.size = true) :
    (∀ client server events t, client.Valid → server.Valid →
      Run (Steps host alloc) (initial client server messages) events t →
      Integrity messages t) ↔
    ∀ m ∈ messages, 8 + m.bytes.length ≤ kPipeBuf := by
  constructor
  · intro hall
    by_contra hnot
    let long : StdString → Bool := fun m => decide (kPipeBuf < 8 + m.bytes.length)
    have hlong : ∃ torn, messages.find? long = some torn := by
      rw [← Option.isSome_iff_exists, List.find?_isSome]
      obtain ⟨m, hm⟩ := not_forall.mp hnot
      obtain ⟨hmem, hsize⟩ := Classical.not_imp.mp hm
      exact ⟨m, hmem, decide_eq_true (Nat.lt_of_not_le hsize)⟩
    obtain ⟨torn, hfind⟩ := hlong
    obtain ⟨htorn, good, rest, hmessages, hgood⟩ := List.find?_eq_some_iff_append.mp hfind
    have hshort : ∀ m ∈ good, 8 + m.bytes.length ≤ kPipeBuf := by
      intro m hm
      have hm' := hgood m hm
      rw [Bool.not_eq_true', decide_eq_false_iff_not] at hm'
      exact Nat.le_of_not_lt hm'
    have hsize := hpacked torn (List.mem_of_find?_eq_some hfind)
    obtain ⟨other, hother⟩ : ∃ other, torn.bytes[kPipeBuf - 8]? ≠ some other := by
      rcases Classical.em (torn.bytes[kPipeBuf - 8]? = some 0) with hzero | hzero
      · exact ⟨1, by rw [hzero]; decide⟩
      · exact ⟨0, hzero⟩
    have hvalid : (Buffer.new (fun _ => other) 4096).Valid := Buffer.valid_new_page _
    obtain ⟨events, t, hrun, hbroken⟩ := torn_run host hmessages hshort hsize
      (of_decide_eq_true htorn) halloc hother hvalid rfl
    exact hbroken (hall _ _ events t hvalid hvalid hrun)
  · intro hfit client server events t hclient hserver hrun
    have hstart : Intact host messages (initial client server messages) :=
      ⟨hclient, hserver, [], [], rfl, rfl, rfl⟩
    exact (hstart.of_run halloc hfit hrun).integrity

/-- One character more than a packet holds. -/
def longMessage : StdString := ⟨List.replicate 4089 120, by rw [List.length_replicate]; decide⟩

theorem longMessage_length : longMessage.bytes.length = 4089 := List.length_replicate

theorem integrity_iff_single_packets_sample :
    ¬ ∀ client server events t, client.Valid → server.Valid →
      Run (Steps .kLittle fun _ => true)
        (initial client server [⟨[104, 105], by decide⟩, longMessage]) events t →
      Integrity [⟨[104, 105], by decide⟩, longMessage] t := by
  intro hall
  have hpacked : ∀ m ∈ [⟨[104, 105], by decide⟩, longMessage], 8 + m.bytes.length ≤ 10000 := by
    intro m hm
    rcases List.mem_cons.mp hm with rfl | hm
    · decide
    · rw [List.mem_singleton.mp hm, longMessage_length]
      decide
  have hfit := (integrity_iff_single_packets .kLittle (fun _ => true) _ hpacked
    fun _ _ => rfl).mp hall longMessage (by simp)
  rw [longMessage_length] at hfit
  exact absurd hfit (by decide)

/-- A receiver whose buffer holds other bytes gets another string than the one sent. -/
theorem long_message_torn :
    longMessage.bytes.length = 4089 ∧ (Buffer.new (fun _ => 0) 4096).Valid ∧
      ∃ events t, Run (Steps .kLittle fun _ => true)
        (initial (Buffer.new (fun _ => 0) 4096) (Buffer.new (fun _ => 0) 4096) [longMessage])
        events t ∧ ¬ Integrity [longMessage] t := by
  have hvalid : (Buffer.new (fun _ => 0) 4096).Valid := Buffer.valid_new_page _
  have hother : longMessage.bytes[kPipeBuf - 8]? ≠ some 0 := by
    unfold longMessage
    rw [List.getElem?_replicate]
    decide
  have hsize : 8 + longMessage.bytes.length ≤ 10000 := by
    rw [longMessage_length]
    decide
  have hlong : kPipeBuf < 8 + longMessage.bytes.length := by
    rw [longMessage_length]
    decide
  have hmessages : [longMessage] = [] ++ longMessage :: [] := rfl
  exact ⟨longMessage_length, hvalid, torn_run .kLittle hmessages
    (fun _ hm => absurd hm List.not_mem_nil) hsize hlong (fun _ _ => rfl) hother hvalid rfl⟩

end PipeSystem
end IpcChecker
