import IpcChecker.Pipe
import IpcChecker.SharedMemoryLink

/-!
# A measurement over rings, FIFOs and sockets

The connectors that do not use shared memory give their messages to the system with one
`write` and take them with one `read`. The system keeps what a write gave it as units,
one for each read: a FIFO in packet mode divides longer messages, a socket divides none.
-/

namespace IpcChecker.Actors
open Shared
set_option autoImplicit false

/-- `Receive` of the pipe and socket servers. A read takes one unit, and waits for it; bytes that
it has no room for are lost. -/
def systemReceive (pending : List (List UInt8)) (b : Buffer) :
    Option (Except Failure Buffer × List (List UInt8)) :=
  match pending with
  | [] => none
  | unit :: rest =>
    match (receive (.bytes (unit.take b.capacity.toNat))).run b with
    | .ok _ b => some (.ok b, rest)
    | .error e _ => some (.error e, rest)

/-- What the system keeps of a FIFO or a socket: the units that a write is queued as, and how
much of them it holds. -/
structure SystemQueue where
  units : List UInt8 → List (List UInt8)
  weight : List UInt8 → Nat
  capacity : Nat

namespace SystemQueue

/-- A FIFO in packet mode, which has a number of slots for packets. -/
def pipe (slots : Nat) : SystemQueue := ⟨packets, fun _ => 1, slots⟩

/-- A socket of a type that keeps messages apart. What a message takes of the buffer of the
socket is up to the system. -/
def socket (weight : List UInt8 → Nat) (bufferSize : Nat) : SystemQueue :=
  ⟨fun message => [message], weight, bufferSize⟩

variable (queue : SystemQueue)

/-- `Send` of the pipe and socket clients, which have one body. A write fails if one of its units
would never go in; otherwise it waits until there is room for all of them. -/
def send (pending : List (List UInt8)) (b : Buffer) :
    Option (Except Failure Unit × List (List UInt8)) :=
  let units := queue.units b.contents
  if units.any fun unit => queue.capacity < queue.weight unit then
    some (.error (.exception "write() failed"), pending)
  else if Fifo.load queue.weight (pending ++ units) ≤ queue.capacity then
    some (.ok (), pending ++ units)
  else none

def link : Link Buffer Failure where
  State := List (List UInt8)
  send := queue.send
  receive := systemReceive

/-- The same queue, if it refused what it divides. -/
def transport : Transport where
  weight message :=
    if queue.units message = [message] then queue.weight message else queue.capacity + 1
  capacity := queue.capacity
  refusal := .exception "write() failed"
  deliver b message := .ok (b.fill (message.take b.capacity.toNat))
  deliver_whole b message h := by rw [List.take_of_length_le h]

/-- The units in the queue are messages that were not divided. -/
def Whole (pending messages : List (List UInt8)) : Prop :=
  pending = messages ∧ ∀ message ∈ messages, queue.units message = [message]

section Refinement
variable {queue} {pending messages : List (List UInt8)}

theorem transport_weight {message : List UInt8} (h : queue.units message = [message]) :
    queue.transport.weight message = queue.weight message := if_pos h

theorem transport_load (h : ∀ message ∈ messages, queue.units message = [message]) :
    Fifo.load queue.transport.weight messages = Fifo.load queue.weight messages := by
  apply congrArg List.sum
  apply List.map_congr_left
  intro message hmem
  exact transport_weight (h message hmem)

theorem Whole.send (h : queue.Whole pending messages) {b : Buffer}
    (hwhole : queue.units b.contents = [b.contents]) :
    Option.Rel (fun a a' => a.1 = a'.1 ∧ queue.Whole a.2 a'.2)
      (queue.send pending b) (queue.transport.queue.send messages b) := by
  obtain ⟨rfl, hall⟩ := h
  have hmodel : queue.transport.queue.send pending b =
      if queue.capacity < queue.weight b.contents then
        some (.error (.exception "write() failed"), pending)
      else if Fifo.load queue.weight pending + queue.weight b.contents ≤ queue.capacity then
        some (.ok (), pending ++ [b.contents])
      else none := by
    unfold Queue.send
    change (if queue.capacity < queue.transport.weight b.contents then _
      else if Fifo.load queue.transport.weight pending + queue.transport.weight b.contents ≤
        queue.capacity then _ else _) = _
    rw [transport_weight hwhole, transport_load hall]
    rfl
  rw [hmodel]
  unfold SystemQueue.send
  simp only [hwhole, List.any_cons, List.any_nil, Bool.or_false, decide_eq_true_eq,
    Fifo.load_append, Fifo.load_cons, Fifo.load_nil, Nat.add_zero]
  by_cases hbig : queue.capacity < queue.weight b.contents
  · rw [if_pos hbig]
    exact .some ⟨rfl, rfl, hall⟩
  · rw [if_neg hbig]
    by_cases hroom : Fifo.load queue.weight pending + queue.weight b.contents ≤ queue.capacity
    · rw [if_pos hroom]
      refine .some ⟨rfl, rfl, fun message hmem => ?_⟩
      rcases List.mem_append.mp hmem with hbefore | hlast
      · exact hall message hbefore
      · rw [List.mem_singleton.mp hlast]
        exact hwhole
    · rw [if_neg hroom]
      exact .none

theorem Whole.receive (h : queue.Whole pending messages) (b : Buffer) :
    Option.Rel (fun a a' => a.1 = a'.1 ∧ queue.Whole a.2 a'.2)
      (systemReceive pending b) (queue.transport.queue.receive messages b) := by
  obtain ⟨rfl, hall⟩ := h
  cases pending with
  | nil => exact .none
  | cons unit rest =>
    exact .some ⟨rfl, rfl, fun message hmem => hall message (List.mem_cons_of_mem _ hmem)⟩

end Refinement

/-- As long as nothing is divided, the system keeps messages. -/
def refinement : Refinement queue.link queue.transport.queue.channel.toLink where
  Related := queue.Whole
  Admits b := queue.units b.contents = [b.contents]
  send _ hwhole h := Whole.send h hwhole
  receive b h := Whole.receive h b

end SystemQueue

/-- What lies between the two ends of a connection. A ring is in the memory of one machine. -/
inductive Medium where
  | ring (host : Endianness) (ring : SPSCRingBuffer)
  | queue (queue : SystemQueue)

namespace Medium

def link : Medium → Link Buffer Failure
  | .ring host _ => sharedMemory host
  | .queue q => q.link

/-- The medium before anything is sent. -/
def start : (m : Medium) → m.link.State
  | .ring _ r => r
  | .queue _ => ([] : List (List UInt8))

def transport : Medium → Transport
  | .ring _ r => ringTransport r.capacity
  | .queue q => q.transport

def refinement : (m : Medium) → Refinement m.link m.transport.queue.channel.toLink
  | .ring host r => ringRefinement host r.capacity
  | .queue q => q.refinement

/-- Nothing lies in the medium yet. -/
def Empty : Medium → Prop
  | .ring host r => Holding host r.capacity r []
  | .queue _ => True

/-- A message of this length goes into the empty medium, and is not divided. -/
def HasRoom : Medium → Nat → Prop
  | .ring _ r, n => 4 + n ≤ r.capacity.toNat
  | .queue q, n => ∀ message : List UInt8, message.length = n →
      q.units message = [message] ∧ q.weight message ≤ q.capacity

variable {m : Medium} {n : Nat}

theorem Empty.related (h : m.Empty) : m.refinement.Related m.start [] := by
  cases m with
  | ring host r => exact h
  | queue q => exact ⟨rfl, nofun⟩

theorem Empty.fits (h : m.Empty) (hroom : m.HasRoom n) {message : List UInt8}
    (hlength : message.length = n) : m.transport.weight message ≤ m.transport.capacity := by
  cases m with
  | ring host r =>
    obtain ⟨_, _, hrep⟩ := h
    subst hlength
    exact (recordSpace_le_iff hrep.aligned).mpr hroom
  | queue q =>
    obtain ⟨hwhole, hweight⟩ := hroom message hlength
    exact (SystemQueue.transport_weight hwhole).trans_le hweight

theorem admits (b : Buffer) (h : m.transport.weight b.contents ≤ m.transport.capacity) :
    m.refinement.Admits b := by
  cases m with
  | ring host r => trivial
  | queue q =>
    by_contra hdivided
    have hweight : q.transport.weight b.contents = q.capacity + 1 := if_neg hdivided
    have hle : q.transport.weight b.contents ≤ q.capacity := h
    omega

/-- The media that connections of each type have between their ends, on one machine and with the
size that their server was constructed with. -/
inductive Serves (host : Endianness) (bufferSize : Option UInt64) :
    ConnectionType → Medium → Prop where
  | sharedMemory {calls : SharedMemoryServer.SystemCalls} {object : SharedObject} :
    (SharedMemoryServer.new calls bufferSize).run none = .ok () (some object) →
      Serves host bufferSize .kSharedMemory (.ring host object.ring)
  | pipe {slots : Nat} : 0 < slots → Serves host bufferSize .kPipe (.queue (.pipe slots))
  | netSocket {weight : List UInt8 → Nat} {size : Nat} :
    Serves host bufferSize .kNetSocket (.queue (.socket weight size))
  | unixSocket {weight : List UInt8 → Nat} {size : Nat} :
    Serves host bufferSize .kUnixSocket (.queue (.socket weight size))

/-- What decides for each type of connection whether messages of this length fit. -/
def Fits (bufferSize : Option UInt64) (type : ConnectionType) (m : Medium) (n : Nat) : Prop :=
  match type with
  | .kSharedMemory => 4 + n ≤ (SharedMemoryServer.requestedCapacity bufferSize).toNat
  | .kPipe => 0 < n ∧ n ≤ kPipeBuf
  | .kNetSocket => m.HasRoom n
  | .kUnixSocket => m.HasRoom n

section Serves
variable {host : Endianness} {bufferSize : Option UInt64} {type : ConnectionType}

theorem Serves.empty (h : Serves host bufferSize type m) : m.Empty := by
  cases h with
  | sharedMemory hnew => exact holding_of_new host hnew
  | pipe hslots => trivial
  | netSocket => trivial
  | unixSocket => trivial

theorem Serves.hasRoom (h : Serves host bufferSize type m) (hfits : Fits bufferSize type m n) :
    m.HasRoom n := by
  cases h with
  | sharedMemory hnew => exact hfits.trans (ring_of_new hnew).2.1
  | pipe hslots =>
    obtain ⟨hpos, hle⟩ := hfits
    intro message hlength
    refine ⟨PipeSystem.packets_single ?_ (hlength.trans_le hle), hslots⟩
    exact List.length_pos_iff.mp (hlength.symm ▸ hpos)
  | netSocket => exact hfits
  | unixSocket => exact hfits

end Serves
end Medium

/-- How long the messages of a connection are: the packed chunks, and the packed ticks. -/
def messageSize (chunksSize : Nat) : Connection → Nat
  | .consumerProducer => 8 + chunksSize
  | .measurerProducer => 8
  | .measurerConsumer => 8

section Measurement
variable {setup : Setup} {medium : Connection → Medium}

/-- A chunk that fits the buffer is no longer than a string may be. -/
theorem lt_string_of_fits {chunksSize : UInt64} (h : 8 + chunksSize.toNat ≤ 10000) :
    chunksSize.toNat < 2 ^ 63 := by
  omega

/-- A tick takes less than a string. -/
theorem ticks_fit_of_strings {chunksTotalCount : UInt64}
    (h : chunksTotalCount.toNat ≤ vectorMaxSize SimpleRoundGenerator.sizeofString) :
    chunksTotalCount.toNat ≤ vectorMaxSize Measurer.sizeofTimeTick :=
  h.trans (by decide)

/-- The vectors that the processes reserve for their messages and ticks can be as long as asked. -/
structure Counts.Reservable (counts : Counts) : Prop where
  producer : counts.producer.toNat ≤ vectorMaxSize SimpleRoundGenerator.sizeofString
  consumer : counts.consumer.toNat ≤ vectorMaxSize Measurer.sizeofTimeTick
  analyzer : counts.analyzer.toNat ≤ vectorMaxSize Measurer.sizeofTimeTick

theorem Counts.Reservable.construct_run {counts : Counts} (h : counts.Reservable) :
    ∀ count ∈ [counts.producer, counts.consumer, counts.analyzer],
      (Measurer.construct count).run () = .ok (Measurer.new count) () := by
  intro count hmem
  apply Measurer.construct_run
  simp only [List.mem_cons, List.not_mem_nil, or_false] at hmem
  obtain rfl | rfl | rfl := hmem
  · exact ticks_fit_of_strings h.producer
  · exact h.consumer
  · exact h.analyzer

theorem conveys_media {chunksSize : UInt64} {counts : Counts} {generator : SimpleRoundGenerator}
    {readings : Thread → List TimeTick} (hagrees : setup.Agrees)
    (hnew : (SimpleRoundGenerator.new chunksSize counts.producer).run () = .ok generator ())
    (halloc : setup.alloc chunksSize = true) (hsize : 8 + chunksSize.toNat ≤ 10000)
    (hempty : ∀ c, (medium c).Empty)
    (hroom : ∀ c, (medium c).HasRoom (messageSize chunksSize.toNat c))
    (hproducer : (readings .producer).length = counts.producer.toNat)
    (hconsumer : (readings .consumer).length = counts.consumer.toNat) :
    setup.Conveys (fun c => (medium c).transport) generator.msgs counts
      (readings .producer) (readings .consumer) := by
  obtain ⟨generator', hnew', hcount, hmsgs⟩ :=
    SimpleRoundGenerator.new_run (lt_string_of_fits hsize)
      (SimpleRoundGenerator.fits_of_new hnew) ()
  rw [hnew'] at hnew
  cases hnew
  refine ⟨hagrees, hcount, hproducer, hconsumer, ?_, ?_, ?_, ?_⟩
  · intro msg hmem
    rw [hmsgs msg hmem]
    exact hsize
  · intro msg hmem
    have hword : msg.size = chunksSize := by
      unfold StdString.size
      rw [hmsgs msg hmem, UInt64.ofNat_toNat]
    exact hword ▸ halloc
  · intro msg hmem
    apply (hempty .consumerProducer).fits (hroom .consumerProducer)
    unfold Setup.chunkBytes
    rw [Packer.fieldBytes_length]
    exact congrArg (8 + ·) (hmsgs msg hmem)
  · intro c hne message hlength
    apply (hempty c).fits (hroom c)
    cases c with
    | consumerProducer => exact absurd rfl hne
    | measurerProducer => exact hlength
    | measurerConsumer => exact hlength

theorem carries_media {chunksSize chunksTotalCount : UInt64} {generator : SimpleRoundGenerator}
    {readings : Thread → List TimeTick} (hagrees : setup.Agrees)
    (hnew : (SimpleRoundGenerator.new chunksSize chunksTotalCount).run () = .ok generator ())
    (halloc : setup.alloc chunksSize = true) (hsize : 8 + chunksSize.toNat ≤ 10000)
    (hempty : ∀ c, (medium c).Empty)
    (hroom : ∀ c, (medium c).HasRoom (messageSize chunksSize.toNat c))
    (hproducer : (readings .producer).length = chunksTotalCount.toNat)
    (hconsumer : (readings .consumer).length = chunksTotalCount.toNat) :
    setup.Carries (fun c => (medium c).transport) generator.msgs chunksTotalCount
      (readings .producer) (readings .consumer) :=
  conveys_media hagrees hnew halloc hsize hempty hroom hproducer hconsumer

theorem completes_media {chunksSize chunksTotalCount : UInt64} {generator : SimpleRoundGenerator}
    {buffers : Thread → Buffer} {readings : Thread → List TimeTick} (hagrees : setup.Agrees)
    (hnew : (SimpleRoundGenerator.new chunksSize chunksTotalCount).run () = .ok generator ())
    (hbuffers : ∀ i, (buffers i).Valid)
    (hproducer : (readings .producer).length = chunksTotalCount.toNat)
    (hconsumer : (readings .consumer).length = chunksTotalCount.toNat)
    (halloc : setup.alloc chunksSize = true) (hsize : 8 + chunksSize.toNat ≤ 10000)
    (hempty : ∀ c, (medium c).Empty)
    (hroom : ∀ c, (medium c).HasRoom (messageSize chunksSize.toNat c)) :
    Completes generator.msgs (readings .producer) (readings .consumer)
      (setup.start (fun c => (medium c).link) generator (.same chunksTotalCount) buffers readings
        fun c => (medium c).start) := by
  have hcarries := carries_media hagrees hnew halloc hsize hempty hroom hproducer hconsumer
  exact completes_over (fun c => (medium c).refinement) (fun c b => (medium c).admits b) hbuffers
    hcarries fun c => (hempty c).related

/-- Over any three media that have room for a message each, for every number of chunks that their
vector can reserve, every size that fits the buffer, and on every schedule of the four threads:
the measurement comes to its end, with all chunks received in order and both lists of ticks at
the Analyzer. -/
theorem measurement_over_media (setup : Setup) (medium : Connection → Medium)
    (hagrees : setup.Agrees) (chunksSize chunksTotalCount : UInt64)
    (hreserve : chunksTotalCount.toNat ≤ vectorMaxSize SimpleRoundGenerator.sizeofString)
    (buffers : Thread → Buffer) (readings : Thread → List TimeTick)
    (hbuffers : ∀ i, (buffers i).Valid)
    (hproducer : (readings .producer).length = chunksTotalCount.toNat)
    (hconsumer : (readings .consumer).length = chunksTotalCount.toNat)
    (halloc : setup.alloc chunksSize = true) (hsize : 8 + chunksSize.toNat ≤ 10000)
    (hempty : ∀ c, (medium c).Empty)
    (hroom : ∀ c, (medium c).HasRoom (messageSize chunksSize.toNat c)) :
    ∃ generator,
      (SimpleRoundGenerator.new chunksSize chunksTotalCount).run () = .ok generator () ∧
      (Measurer.construct chunksTotalCount).run () = .ok (Measurer.new chunksTotalCount) () ∧
      Completes generator.msgs (readings .producer) (readings .consumer)
        (setup.start (fun c => (medium c).link) generator (.same chunksTotalCount) buffers readings
          fun c => (medium c).start) := by
  obtain ⟨generator, hnew, _, _⟩ :=
    SimpleRoundGenerator.new_run (lt_string_of_fits hsize) hreserve ()
  have hmeasurer := Measurer.construct_run (ticks_fit_of_strings hreserve) ()
  exact ⟨generator, hnew, hmeasurer, completes_media hagrees hnew hbuffers hproducer hconsumer
    halloc hsize hempty hroom⟩

end Measurement

/-- Three types of connections on one machine. -/
def mixedSetup : Setup where
  producerHost := .kLittle
  consumerHost := .kLittle
  analyzerHost := .kLittle
  producer := ⟨.kPipe, .kSharedMemory⟩
  consumer := ⟨.kPipe, .kUnixSocket⟩
  analyzer := ⟨.kSharedMemory, .kUnixSocket⟩
  alloc := fun _ => true

/-- Each has room for one message only. -/
def mixedMedium : Connection → Medium
  | .consumerProducer => .queue (.pipe 1)
  | .measurerProducer => .ring .kLittle (SPSCRingBuffer.initial 12 fun _ => 0)
  | .measurerConsumer => .queue (.socket List.length 8)

theorem mixedMedium_empty : ∀ c, (mixedMedium c).Empty
  | .consumerProducer => trivial
  | .measurerProducer => ⟨rfl, 0, Represents.of_initial .kLittle rfl _⟩
  | .measurerConsumer => trivial

/-- Chunks of 20 bytes. -/
theorem mixedMedium_hasRoom : ∀ c, (mixedMedium c).HasRoom (messageSize (20 : UInt64).toNat c)
  | .consumerProducer => fun message hlength => by
    have hsize : message.length = 28 := hlength
    refine ⟨PipeSystem.packets_single ?_ (by unfold kPipeBuf; omega), Nat.le_refl 1⟩
    exact List.length_pos_iff.mp (by omega)
  | .measurerProducer => Nat.le_refl 12
  | .measurerConsumer => fun message hlength => ⟨rfl, Nat.le_of_eq hlength⟩

theorem measurement_over_media_sample : ∃ t : Network.State mixedSetup.network
      fun c => (mixedMedium c).link,
    (Statistics.process (producerWorkerOf t).measurer (consumerWorkerOf t).measurer).run () =
      .ok ([2, 4], some 8) () := by
  obtain ⟨_, _, _, _, hall⟩ := measurement_over_media mixedSetup mixedMedium
    ⟨rfl, rfl, rfl⟩ 20 2 (by decide) (fun _ => Buffer.new (bytesAt []) 4096) twoReadings
    (fun _ => Buffer.valid_new_page _) rfl rfl rfl (by decide) mixedMedium_empty
    mixedMedium_hasRoom
  obtain ⟨_, _, t, _, _, _, hstatistics⟩ := hall [] _ .start
  exact ⟨t, hstatistics⟩

end IpcChecker.Actors
