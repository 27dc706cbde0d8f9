import IpcChecker.Connection
import IpcChecker.Measurer

/-!
# Ticks on their way to the Analyzer

Producer and Consumer send their ticks after the measurement, the Analyzer's
workers collect them. Each executable selects the packer of a measurer
connection for itself; the ticks survive exactly when the selections agree on
the byte order on the wire or no tick depends on it.
-/

namespace IpcChecker
set_option autoImplicit false

/-! The arguments that decide the packers, and the parameter structs built from them. -/

structure ProducerArguments where
  connectionType : ConnectionType
  measurerConnectionType : ConnectionType

structure ConsumerArguments where
  connectionType : ConnectionType
  measurerConnectionType : ConnectionType

structure AnalizerArguments where
  measurerProducerConnectionType : ConnectionType
  measurerConsumerConnectionType : ConnectionType

namespace ProducerArguments

def measurerProducerConnectionClientParams (arguments : ProducerArguments) : ConnectionType :=
  arguments.measurerConnectionType

/-- The packer is chosen by the type of the data connection. -/
def measurerProducerConnectionPackerParams (arguments : ProducerArguments) : ConnectionType :=
  arguments.connectionType

end ProducerArguments

namespace ConsumerArguments

def measurerConsumerConnectionClientParams (arguments : ConsumerArguments) : ConnectionType :=
  arguments.measurerConnectionType

/-- The packer is chosen by the type of the data connection. -/
def measurerConsumerConnectionPackerParams (arguments : ConsumerArguments) : ConnectionType :=
  arguments.connectionType

end ConsumerArguments

namespace AnalizerArguments

def measurerProducerConnectionServerParams (arguments : AnalizerArguments) : ConnectionType :=
  arguments.measurerProducerConnectionType

def measurerConsumerConnectionServerParams (arguments : AnalizerArguments) : ConnectionType :=
  arguments.measurerConsumerConnectionType

def measurerProducerConnectionPackerParams (arguments : AnalizerArguments) : ConnectionType :=
  arguments.measurerProducerConnectionType

def measurerConsumerConnectionPackerParams (arguments : AnalizerArguments) : ConnectionType :=
  arguments.measurerConsumerConnectionType

end AnalizerArguments

/-- The packer parameters of the class template `Analyzer`, in their order there. -/
structure AnalyzerPackers where
  producerMeasurerConnectionPacker : Packer
  consumerMeasurerConnectionPacker : Packer
  deriving DecidableEq

/-- `CreateAnalyzer` hands the template its arguments by position, the consumer's packer
before the producer's. -/
def createAnalyzer (host : Endianness) (arguments : AnalizerArguments) : AnalyzerPackers :=
  ⟨createPacker host arguments.measurerConsumerConnectionPackerParams,
    createPacker host arguments.measurerProducerConnectionPackerParams⟩

/-- `while (measurer.HasNext())` of Producer and Consumer: the messages handed to Send. -/
def sendTicks (host : Endianness) (packer : Packer) (measurer : Measurer) :
    Action Buffer (List (List UInt8)) :=
  match _hnext : measurer.next with
  | none => return []
  | some (tick, measurer') => do
    let message ← sendRound (packer.serializeTimePoint host tick)
    let messages ← sendTicks host packer measurer'
    return message :: messages
termination_by measurer.remaining.length
decreasing_by
  rw [Measurer.remaining_of_next _hnext]
  exact Nat.lt_succ_self _

/-- `while (!measurer.IsFull())` of an Analyzer worker, over the messages that arrive. -/
def receiveTicks (host : Endianness) (packer : Packer) :
    List (List UInt8) → Measurer → Action Buffer Measurer
  | [], measurer => return measurer
  | message :: messages, measurer =>
    if measurer.isFull then return measurer
    else do
      let tick ← receiveRound (packer.deserializeTimePoint host) (.bytes message)
      receiveTicks host packer messages (measurer.pushBack tick)

/-- The eight bytes of the tick read the same in both byte orders. -/
def OrderFree (tick : TimeTick) : Prop :=
  objectBytes .kBig 8 tick.toUInt64.toNat = objectBytes .kLittle 8 tick.toUInt64.toNat

instance (tick : TimeTick) : Decidable (OrderFree tick) := inferInstanceAs (Decidable (_ = _))

/-- The tick taken from eight bytes in the given order. -/
def tickOf (order : Endianness) (bs : List UInt8) : TimeTick :=
  (UInt64.ofNat (ofObjectBytes order bs)).toInt64

/-- Ticks sent with one packer arrive as they were, from any buffers. -/
def TicksSurvive (sender : Endianness) (sendPacker : Packer) (analyzer : Endianness)
    (receivePacker : Packer) (chunksTotalCount : UInt64) (ticks : List TimeTick) : Prop :=
  ∀ (m : Measurer) (b c : Buffer), m.measurements = ticks → b.Valid → c.Valid →
    ∃ messages b' m' c',
      (sendTicks sender sendPacker m.toFirst).run b = .ok messages b' ∧
      (receiveTicks analyzer receivePacker messages (Measurer.new chunksTotalCount)).run c =
        .ok m' c' ∧
      m'.isFull = true ∧ m'.measurements = ticks

theorem deserializeTimePoint_reads (host : Endianness) (type : ConnectionType) {bs : List UInt8}
    (h : bs.length = 8) :
    Buffer.Reads ((createPacker host type).deserializeTimePoint host) bs
      (tickOf (wireOrder host type) bs) := by
  have hread := (Packer.deserializeObject_reads (createPacker host type) h).map
    fun bytes => (UInt64.ofNat (ofObjectBytes host bytes)).toInt64
  rwa [ofObjectBytes_createPacker] at hread

theorem serializeTimePoint_writes (host : Endianness) (type : ConnectionType) (tick : TimeTick) :
    Buffer.Writes ((createPacker host type).serializeTimePoint host tick)
      (objectBytes (wireOrder host type) 8 tick.toUInt64.toNat) := by
  rw [← scalarBytes_createPacker]
  exact Packer.serializeScalar_writes host (createPacker host type) _

theorem orderFree_iff {written read : Endianness} (h : written ≠ read) (tick : TimeTick) :
    OrderFree tick ↔
      objectBytes written 8 tick.toUInt64.toNat = objectBytes read 8 tick.toUInt64.toNat := by
  cases written with
  | kBig =>
    cases read with
    | kBig => exact absurd rfl h
    | kLittle => exact Iff.rfl
  | kLittle =>
    cases read with
    | kBig => exact eq_comm
    | kLittle => exact absurd rfl h

theorem tickOf_same (order : Endianness) (tick : TimeTick) :
    tickOf order (objectBytes order 8 tick.toUInt64.toNat) = tick := by
  unfold tickOf
  rw [Packer.ofNat_ofObjectBytes]
  rfl

theorem objectBytes_tickOf (order : Endianness) {bs : List UInt8} (h : bs.length = 8) :
    objectBytes order 8 (tickOf order bs).toUInt64.toNat = bs := by
  have hbound := ofObjectBytes_lt order bs
  rw [h] at hbound
  have hnat : (tickOf order bs).toUInt64.toNat = ofObjectBytes order bs :=
    UInt64.toNat_ofNat_of_lt' hbound
  rw [hnat, objectBytes_ofObjectBytes order h]

/-- A tick read in the order it was written is itself; read in the other order it is
itself exactly when its bytes do not depend on the order. -/
theorem tickOf_objectBytes (written read : Endianness) (tick : TimeTick) :
    tickOf read (objectBytes written 8 tick.toUInt64.toNat) = tick ↔
      written = read ∨ OrderFree tick := by
  by_cases horder : written = read
  · subst horder
    exact ⟨fun _ => Or.inl rfl, fun _ => tickOf_same written tick⟩
  · rw [or_iff_right horder, orderFree_iff horder]
    constructor
    · intro heq
      have hbytes := objectBytes_tickOf read (objectBytes_length written 8 tick.toUInt64.toNat)
      rw [heq] at hbytes
      exact hbytes.symm
    · intro hbytes
      rw [hbytes]
      exact tickOf_same read tick

section Loops
variable (host : Endianness) (type : ConnectionType)

theorem sendTicks_run (ticks : List TimeTick) : ∀ (m : Measurer) (b : Buffer),
    m.remaining = ticks → b.Valid →
    ∃ b', (sendTicks host (createPacker host type) m).run b =
        .ok (ticks.map fun tick => objectBytes (wireOrder host type) 8 tick.toUInt64.toNat) b' ∧
      b'.Valid := by
  induction ticks with
  | nil =>
    intro m b hm hb
    rw [sendTicks]
    split
    · exact ⟨b, rfl, hb⟩
    · rename_i hnext
      rw [Measurer.remaining_of_next hnext] at hm
      cases hm
  | cons tick ticks ih =>
    intro m b hm hb
    rw [sendTicks]
    split
    · rename_i hnext
      rw [Measurer.remaining_of_next_none hnext] at hm
      cases hm
    · rename_i tick' m' hnext
      rw [Measurer.remaining_of_next hnext] at hm
      cases hm
      obtain ⟨b₁, hrun, hvalid⟩ := sendRound_writes (serializeTimePoint_writes host type tick)
        (by simp) hb
      obtain ⟨b₂, hrest, hvalid'⟩ := ih m' b₁ rfl hvalid
      refine ⟨b₂, ?_, hvalid'⟩
      rw [run_bind_ok hrun, run_bind_ok hrest]
      rfl

theorem receiveTicks_run (messages : List (List UInt8)) : ∀ (m : Measurer) (c : Buffer),
    (∀ message ∈ messages, message.length = 8) →
    m.measurements.length + messages.length ≤ m.capacity → c.Valid →
    ∃ c', (receiveTicks host (createPacker host type) messages m).run c =
      .ok { m with measurements := m.measurements ++
        messages.map (tickOf (wireOrder host type)) } c' := by
  induction messages with
  | nil =>
    intro m c _ _ _
    refine ⟨c, ?_⟩
    rw [List.map_nil, List.append_nil]
    rfl
  | cons message messages ih =>
    intro m c hlength hroom hc
    have hmessage := hlength message List.mem_cons_self
    rw [List.length_cons] at hroom
    have hfull : ¬ m.isFull = true := by
      unfold Measurer.isFull
      rw [decide_eq_true_iff]
      omega
    obtain ⟨hrun, hvalid⟩ := receiveRound_reads
      (deserializeTimePoint_reads host type hmessage) (by omega) hc
    have hpush := Measurer.emplaceBack_of_lt (m := m) (by omega)
      (tickOf (wireOrder host type) message)
    obtain ⟨c₂, hrest⟩ := ih (m.pushBack (tickOf (wireOrder host type) message)) _
      (fun message' hmem => hlength message' (List.mem_cons_of_mem _ hmem))
      (by rw [Measurer.pushBack, hpush, List.length_append]; simp; omega) hvalid
    refine ⟨c₂, ?_⟩
    rw [receiveTicks, if_neg hfull, run_bind_ok hrun, hrest, Measurer.pushBack, hpush]
    simp

end Loops

theorem transfer_run (sender analyzer : Endianness) (sendType receiveType : ConnectionType)
    {chunksTotalCount : UInt64} {ticks : List TimeTick}
    (hcount : ticks.length = chunksTotalCount.toNat) {m : Measurer} {b c : Buffer}
    (hm : m.measurements = ticks) (hb : b.Valid) (hc : c.Valid) :
    ∃ messages b' c',
      (sendTicks sender (createPacker sender sendType) m.toFirst).run b = .ok messages b' ∧
      (receiveTicks analyzer (createPacker analyzer receiveType) messages
        (Measurer.new chunksTotalCount)).run c =
        .ok { Measurer.new chunksTotalCount with
          measurements := ticks.map fun tick => tickOf (wireOrder analyzer receiveType)
            (objectBytes (wireOrder sender sendType) 8 tick.toUInt64.toNat) } c' := by
  have hremaining : m.toFirst.remaining = ticks := hm
  obtain ⟨b', hsent, _⟩ := sendTicks_run sender sendType ticks m.toFirst b hremaining hb
  have hlength : ∀ message ∈ ticks.map fun tick =>
      objectBytes (wireOrder sender sendType) 8 tick.toUInt64.toNat, message.length = 8 := by
    intro message hmem
    obtain ⟨tick, _, rfl⟩ := List.mem_map.mp hmem
    exact objectBytes_length _ _ _
  have hroom : (Measurer.new chunksTotalCount).measurements.length + (ticks.map fun tick =>
      objectBytes (wireOrder sender sendType) 8 tick.toUInt64.toNat).length ≤
        (Measurer.new chunksTotalCount).capacity := by
    rw [List.length_map, hcount]
    exact Nat.le_of_eq (Nat.zero_add _)
  obtain ⟨c', hreceived⟩ := receiveTicks_run analyzer receiveType _
    (Measurer.new chunksTotalCount) c hlength hroom hc
  refine ⟨_, b', c', hsent, ?_⟩
  rw [hreceived, List.map_map]
  rfl

theorem ticksSurvive_iff {sender analyzer : Endianness} {sendType receiveType : ConnectionType}
    {chunksTotalCount : UInt64} {ticks : List TimeTick}
    (hcount : ticks.length = chunksTotalCount.toNat) :
    TicksSurvive sender (createPacker sender sendType) analyzer
        (createPacker analyzer receiveType) chunksTotalCount ticks ↔
      wireOrder sender sendType = wireOrder analyzer receiveType ∨
        ∀ tick ∈ ticks, OrderFree tick := by
  have hfirst : (Buffer.new (bytesAt []) 4096).Valid := Buffer.valid_new_page _
  constructor
  · intro hsurvive
    let m : Measurer := { Measurer.new chunksTotalCount with measurements := ticks }
    obtain ⟨messages, b', m', c', hsent, hreceived, _, hticks⟩ := hsurvive m _ _ rfl hfirst hfirst
    obtain ⟨messages₂, b₂, c₂, hsent₂, hreceived₂⟩ :=
      transfer_run sender analyzer sendType receiveType hcount (m := m) rfl hfirst hfirst
    rw [hsent] at hsent₂
    cases hsent₂
    rw [hreceived] at hreceived₂
    cases hreceived₂
    rcases Classical.em (wireOrder sender sendType = wireOrder analyzer receiveType) with
      hsame | hdiffer
    · exact Or.inl hsame
    · right
      intro tick hmem
      have hmap : (ticks.map fun tick => tickOf (wireOrder analyzer receiveType)
          (objectBytes (wireOrder sender sendType) 8 tick.toUInt64.toNat)) = ticks.map id := by
        rw [List.map_id]
        exact hticks
      have htick := List.map_inj_left.mp hmap tick hmem
      exact ((tickOf_objectBytes _ _ tick).mp htick).resolve_left hdiffer
  · intro hcond m b c hm hb hc
    obtain ⟨messages, b', c', hsent, hreceived⟩ :=
      transfer_run sender analyzer sendType receiveType hcount hm hb hc
    have hall : (ticks.map fun tick => tickOf (wireOrder analyzer receiveType)
        (objectBytes (wireOrder sender sendType) 8 tick.toUInt64.toNat)) = ticks := by
      conv_rhs => rw [← List.map_id ticks]
      apply List.map_congr_left
      intro tick hmem
      apply (tickOf_objectBytes _ _ tick).mpr
      rcases hcond with hsame | hfree
      · exact Or.inl hsame
      · exact Or.inr (hfree tick hmem)
    rw [hall] at hreceived
    refine ⟨messages, b', _, c', hsent, hreceived, ?_, rfl⟩
    exact decide_eq_true hcount

/-- Data over a socket, ticks over a pipe, one little-endian host. -/
def sampleProducer : ProducerArguments where
  connectionType := .kNetSocket
  measurerConnectionType := .kPipe

def sampleConsumer : ConsumerArguments where
  connectionType := .kNetSocket
  measurerConnectionType := .kPipe

def sampleAnalizer : AnalizerArguments where
  measurerProducerConnectionType := .kPipe
  measurerConsumerConnectionType := .kPipe

theorem not_orderFree_one : ¬ OrderFree 1 := by decide

/-- For the producer's ticks and the consumer's: with the packer each end selects for the
measurer connection, and with the packers as `CreateAnalyzer` hands them over. -/
theorem ticksSurvive_configuration_iff (producerHost consumerHost analyzerHost : Endianness)
    (producer : ProducerArguments) (consumer : ConsumerArguments) (analyzer : AnalizerArguments)
    (hproducer : analyzer.measurerProducerConnectionServerParams =
      producer.measurerProducerConnectionClientParams)
    (hconsumer : analyzer.measurerConsumerConnectionServerParams =
      consumer.measurerConsumerConnectionClientParams)
    (chunksTotalCount : UInt64) (ticks : List TimeTick)
    (hcount : ticks.length = chunksTotalCount.toNat) :
    let producerPacker := createPacker producerHost producer.measurerProducerConnectionPackerParams
    let consumerPacker := createPacker consumerHost consumer.measurerConsumerConnectionPackerParams
    (TicksSurvive producerHost producerPacker analyzerHost
        (createPacker analyzerHost analyzer.measurerProducerConnectionPackerParams)
        chunksTotalCount ticks ↔
      wireOrder producerHost producer.connectionType =
          wireOrder analyzerHost producer.measurerConnectionType ∨
        ∀ tick ∈ ticks, OrderFree tick) ∧
    (TicksSurvive consumerHost consumerPacker analyzerHost
        (createPacker analyzerHost analyzer.measurerConsumerConnectionPackerParams)
        chunksTotalCount ticks ↔
      wireOrder consumerHost consumer.connectionType =
          wireOrder analyzerHost consumer.measurerConnectionType ∨
        ∀ tick ∈ ticks, OrderFree tick) ∧
    (TicksSurvive producerHost producerPacker analyzerHost
        (createAnalyzer analyzerHost analyzer).producerMeasurerConnectionPacker
        chunksTotalCount ticks ↔
      wireOrder producerHost producer.connectionType =
          wireOrder analyzerHost consumer.measurerConnectionType ∨
        ∀ tick ∈ ticks, OrderFree tick) ∧
    (TicksSurvive consumerHost consumerPacker analyzerHost
        (createAnalyzer analyzerHost analyzer).consumerMeasurerConnectionPacker
        chunksTotalCount ticks ↔
      wireOrder consumerHost consumer.connectionType =
          wireOrder analyzerHost producer.measurerConnectionType ∨
        ∀ tick ∈ ticks, OrderFree tick) := by
  change analyzer.measurerProducerConnectionType = producer.measurerConnectionType at hproducer
  change analyzer.measurerConsumerConnectionType = consumer.measurerConnectionType at hconsumer
  rw [← hproducer, ← hconsumer]
  exact ⟨ticksSurvive_iff hcount, ticksSurvive_iff hcount, ticksSurvive_iff hcount,
    ticksSurvive_iff hcount⟩

theorem ticksSurvive_configuration_iff_sample :
    ¬ TicksSurvive .kLittle
        (createPacker .kLittle sampleProducer.measurerProducerConnectionPackerParams) .kLittle
        (createPacker .kLittle sampleAnalizer.measurerProducerConnectionPackerParams) 2 [1, 0] ∧
      TicksSurvive .kBig
        (createPacker .kBig sampleConsumer.measurerConsumerConnectionPackerParams) .kBig
        (createPacker .kBig sampleAnalizer.measurerConsumerConnectionPackerParams) 2 [1, 0] := by
  have hlittle := ticksSurvive_configuration_iff .kLittle .kLittle .kLittle sampleProducer
    sampleConsumer sampleAnalizer rfl rfl 2 [1, 0] rfl
  have hbig := ticksSurvive_configuration_iff .kBig .kBig .kBig sampleProducer
    sampleConsumer sampleAnalizer rfl rfl 2 [1, 0] rfl
  constructor
  · intro hsurvive
    rcases hlittle.1.mp hsurvive with horder | hfree
    · cases horder
    · exact not_orderFree_one (hfree 1 List.mem_cons_self)
  · exact hbig.2.1.mpr (Or.inl rfl)

/-- A network packer's tick read by a local packer: the mixed types lose the tick 1. -/
theorem mixed_types_lose_ticks :
    ¬ TicksSurvive .kLittle
      (createPacker .kLittle sampleProducer.measurerProducerConnectionPackerParams) .kLittle
      (createPacker .kLittle sampleAnalizer.measurerProducerConnectionPackerParams) 1 [1] := by
  intro hsurvive
  have hcount : [(1 : TimeTick)].length = (1 : UInt64).toNat := rfl
  rcases (ticksSurvive_iff hcount).mp hsurvive with horder | hfree
  · cases horder
  · exact not_orderFree_one (hfree 1 List.mem_cons_self)

end IpcChecker
