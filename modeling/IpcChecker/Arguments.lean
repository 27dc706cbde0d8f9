import IpcChecker.ConnectionString
import IpcChecker.Shared.Runs

/-!
# Command line arguments

`Arguments` with its counter of required options, and the option tables of the
four programs. A field that was not initialised is `none` until it is written.
-/

namespace IpcChecker.CommandLine
open Shared
set_option autoImplicit false

/-- An option; its parser acts on the fields `F` of the program's arguments. -/
structure Item (F : Type) where
  name : String
  key : Int
  required : Bool
  parser : StringView → Action F Unit
  parsed : Bool

/-- `std::unordered_map<int, Item>`: no key occurs twice. -/
structure ItemMap (F : Type) where
  items : List (Item F)
  keys_nodup : (items.map Item.key).Nodup

namespace ItemMap
variable {F : Type}

def empty : ItemMap F := ⟨[], List.nodup_nil⟩

def find (m : ItemMap F) (key : Int) : Option (Item F) := m.items.find? fun i => i.key = key

theorem emplace_nodup (m : ItemMap F) {item : Item F} (h : item.key ∉ m.items.map Item.key) :
    ((m.items ++ [item]).map Item.key).Nodup := by
  rw [List.map_append, List.map_singleton]
  refine List.nodup_append.mpr ⟨m.keys_nodup, List.nodup_singleton _, ?_⟩
  intro key hkey last hlast heq
  rw [List.mem_singleton.mp hlast] at heq
  exact h (heq ▸ hkey)

/-- `emplace` leaves the map alone when the key is there already. -/
def emplace (m : ItemMap F) (item : Item F) : ItemMap F :=
  if h : item.key ∈ m.items.map Item.key then m
  else ⟨m.items ++ [item], m.emplace_nodup h⟩

/-- `parsed = true` in the entry of a key. -/
def markParsed (m : ItemMap F) (key : Int) : ItemMap F where
  items := m.items.map fun i => if i.key = key then { i with parsed := true } else i
  keys_nodup := by
    rw [List.map_map]
    have hkeys : (Item.key ∘ fun i : Item F => if i.key = key then { i with parsed := true }
        else i) = Item.key := by
      funext i
      simp only [Function.comp_apply]
      split <;> rfl
    rw [hkeys]
    exact m.keys_nodup

end ItemMap

structure Arguments (F : Type) where
  requredItemsCount : Int
  items : ItemMap F

namespace Arguments
variable {F : Type}

def required (name : String) (key : Int) (parser : StringView → Action F Unit) : Item F :=
  ⟨name, key, true, parser, false⟩

def optional (name : String) (key : Int) (parser : StringView → Action F Unit) : Item F :=
  ⟨name, key, false, parser, false⟩

/-- One round of the constructor's loop. -/
def add (a : Arguments F) (item : Item F) : Arguments F where
  requredItemsCount := if item.required then a.requredItemsCount + 1 else a.requredItemsCount
  items := a.items.emplace item

def new (items : List (Item F)) : Arguments F := items.foldl add ⟨0, ItemMap.empty⟩

def hasNotParsedRequiredArguments (a : Arguments F) : Bool := a.requredItemsCount ≠ 0

end Arguments

/-- An object of a class derived from `Arguments`, with the fields `F`. -/
structure Derived (F : Type) extends Arguments F where
  fields : F

namespace Derived
variable {F : Type}

/-- A parser called from the base class; what it did to the fields stays when it throws. -/
def onFields (action : Action F Unit) : Action (Derived F) Unit := fun d =>
  match action.run d.fields with
  | .ok _ fields => .ok () { d with fields := fields }
  | .error e fields => .error e { d with fields := fields }

theorem onFields_run (action : Action F Unit) (d : Derived F) :
    (onFields action).run d = match action.run d.fields with
      | .ok _ fields => .ok () { d with fields := fields }
      | .error e fields => .error e { d with fields := fields } := rfl

def parseArgument (key : Int) (value : StringView) : Action (Derived F) Unit := do
  match (← get).items.find key with
  | none => throw .assertion
  | some item =>
    onFields (item.parser value)
    if item.required && !item.parsed then
      modify fun d => { d with requredItemsCount := d.requredItemsCount - 1 }
    modify fun d => { d with items := d.items.markParsed key }

end Derived

/-- A call of `ParseArgument`. -/
structure Call where
  key : Int
  value : StringView
  deriving DecidableEq

/-- A call whose caller goes on whatever happens, and how it failed, if it did. -/
def Derived.call {F : Type} (d : Derived F) (c : Call) : Derived F × Option Failure :=
  match (Derived.parseArgument c.key c.value).run d with
  | .ok _ d' => (d', none)
  | .error e d' => (d', some e)

def sizeT : IntegerType := ⟨false, 0, 2 ^ 64 - 1⟩

def cInt : IntegerType := ⟨true, -2 ^ 31, 2 ^ 31 - 1⟩

/-- What `std::from_chars` leaves in its target; the code looks at nothing else. -/
def fromCharsTo (type : IntegerType) (value : StringView) (target : Option type.Value) :
    Option type.Value :=
  match Decimal.fromChars type value with
  | .ok (v, _) => some v
  | .error _ => target

/-- A pointer to a member. -/
structure Member (F A : Type) where
  get : F → A
  set : F → A → F
  get_set : ∀ f a, get (set f a) = a

section Parsers
variable {F : Type}

/-- `std::from_chars` into a member. -/
def parseNumber (type : IntegerType) (member : Member F (Option type.Value)) (value : StringView) :
    Action F Unit :=
  modify fun f => member.set f (fromCharsTo type value (member.get f))

/-- `std::from_chars` into a local without an initialiser, which then goes into a
`std::optional` member. -/
def parseOptionalNumber (type : IntegerType) (member : Member F (Option (Option type.Value)))
    (value : StringView) : Action F Unit :=
  modify fun f => member.set f (some (fromCharsTo type value none))

/-- A connection string into its two members. -/
def parseConnectionTo (typeMember : Member F (Option ConnectionType))
    (idMember : Member F StringView) : StringView → Action F Unit :=
  parseConnection (fun type f => typeMember.set f (some type)) (fun id f => idMember.set f id)

/-- The name of a connection type alone. -/
def parseConnectionType (member : Member F (Option ConnectionType)) (value : StringView) :
    Action F Unit := do
  let type ← convert value
  modify fun f => member.set f (some type)

end Parsers

structure ProducerArguments where
  chunksSize : Option sizeT.Value := none
  chunksTotalCount : Option sizeT.Value := none
  connectionType : Option ConnectionType := none
  connectionId : StringView := []
  connectionBufferSize : Option (Option sizeT.Value) := none
  measurerConnectionType : Option ConnectionType := none
  measurerConnectionId : StringView := []
  cpu : Option cInt.Value := some ⟨-1, by decide⟩

namespace ProducerArguments

def kChunksSize : Int := 1000
def kChunksTotalCount : Int := 1001
def kConnection : Int := 2000
def kConnectionBufferSize : Int := 2001
def kMeasurer : Int := 3000
def kCpu : Int := 4000

def items : List (Item ProducerArguments) :=
  [Arguments.required "chunks-size" kChunksSize (parseNumber sizeT
      ⟨chunksSize, fun f a => { f with chunksSize := a }, fun _ _ => rfl⟩),
    Arguments.required "chunks-total-count" kChunksTotalCount (parseNumber sizeT
      ⟨chunksTotalCount, fun f a => { f with chunksTotalCount := a }, fun _ _ => rfl⟩),
    Arguments.required "connection" kConnection (parseConnectionTo
      ⟨connectionType, fun f a => { f with connectionType := a }, fun _ _ => rfl⟩
      ⟨connectionId, fun f a => { f with connectionId := a }, fun _ _ => rfl⟩),
    Arguments.optional "connection-buffer-size" kConnectionBufferSize (parseOptionalNumber sizeT
      ⟨connectionBufferSize, fun f a => { f with connectionBufferSize := a }, fun _ _ => rfl⟩),
    Arguments.required "measurer" kMeasurer (parseConnectionTo
      ⟨measurerConnectionType, fun f a => { f with measurerConnectionType := a }, fun _ _ => rfl⟩
      ⟨measurerConnectionId, fun f a => { f with measurerConnectionId := a }, fun _ _ => rfl⟩),
    Arguments.optional "cpu" kCpu (parseNumber cInt
      ⟨cpu, fun f a => { f with cpu := a }, fun _ _ => rfl⟩)]

end ProducerArguments

structure ConsumerArguments where
  chunksTotalCount : Option sizeT.Value := none
  connectionType : Option ConnectionType := none
  connectionId : StringView := []
  connectionBufferSize : Option (Option sizeT.Value) := none
  measurerConnectionType : Option ConnectionType := none
  measurerConnectionId : StringView := []
  cpu : Option cInt.Value := some ⟨-1, by decide⟩

namespace ConsumerArguments

def kChunksTotalCount : Int := 1000
def kConnection : Int := 2000
def kConnectionBufferSize : Int := 2001
def kMeasurer : Int := 3000
def kCpu : Int := 4000

def items : List (Item ConsumerArguments) :=
  [Arguments.required "chunks-total-count" kChunksTotalCount (parseNumber sizeT
      ⟨chunksTotalCount, fun f a => { f with chunksTotalCount := a }, fun _ _ => rfl⟩),
    Arguments.required "connection" kConnection (parseConnectionTo
      ⟨connectionType, fun f a => { f with connectionType := a }, fun _ _ => rfl⟩
      ⟨connectionId, fun f a => { f with connectionId := a }, fun _ _ => rfl⟩),
    Arguments.optional "connection-buffer-size" kConnectionBufferSize (parseOptionalNumber sizeT
      ⟨connectionBufferSize, fun f a => { f with connectionBufferSize := a }, fun _ _ => rfl⟩),
    Arguments.required "measurer" kMeasurer (parseConnectionTo
      ⟨measurerConnectionType, fun f a => { f with measurerConnectionType := a }, fun _ _ => rfl⟩
      ⟨measurerConnectionId, fun f a => { f with measurerConnectionId := a }, fun _ _ => rfl⟩),
    Arguments.optional "environment-cpu" kCpu (parseNumber cInt
      ⟨cpu, fun f a => { f with cpu := a }, fun _ _ => rfl⟩)]

end ConsumerArguments

structure AnalizerArguments where
  chunksTotalCount : Option sizeT.Value := none
  measurerProducerConnectionType : Option ConnectionType := none
  measurerProducerConnectionId : StringView := []
  measurerConsumerConnectionType : Option ConnectionType := none
  measurerConsumerConnectionId : StringView := []

namespace AnalizerArguments

def kChunksTotalCount : Int := 1000
def kMeasurerProducer : Int := 2000
def kMeasurerConsumer : Int := 3000

def items : List (Item AnalizerArguments) :=
  [Arguments.required "chunks-total-count" kChunksTotalCount (parseNumber sizeT
      ⟨chunksTotalCount, fun f a => { f with chunksTotalCount := a }, fun _ _ => rfl⟩),
    Arguments.required "measurer-producer" kMeasurerProducer (parseConnectionTo
      ⟨measurerProducerConnectionType, fun f a => { f with measurerProducerConnectionType := a },
        fun _ _ => rfl⟩
      ⟨measurerProducerConnectionId, fun f a => { f with measurerProducerConnectionId := a },
        fun _ _ => rfl⟩),
    Arguments.required "measurer-consumer" kMeasurerConsumer (parseConnectionTo
      ⟨measurerConsumerConnectionType, fun f a => { f with measurerConsumerConnectionType := a },
        fun _ _ => rfl⟩
      ⟨measurerConsumerConnectionId, fun f a => { f with measurerConsumerConnectionId := a },
        fun _ _ => rfl⟩)]

end AnalizerArguments

structure RunTestArguments where
  chunksSize : Option sizeT.Value := none
  chunksTotalCount : Option sizeT.Value := none
  connectionType : Option ConnectionType := none
  connectionBufferSize : Option sizeT.Value := none
  environmentProducerCpu : Option cInt.Value := some ⟨-1, by decide⟩
  environmentConsumerCpu : Option cInt.Value := some ⟨-1, by decide⟩

namespace RunTestArguments

def kChunksSize : Int := 1000
def kChunksTotalCount : Int := 1001
def kConnection : Int := 2000
def kConnectionBufferSize : Int := 2001
def kEnvironmentProducerCpu : Int := 3000
def kEnvironmentConsumerCpu : Int := 3001

def items : List (Item RunTestArguments) :=
  [Arguments.required "chunks-size" kChunksSize (parseNumber sizeT
      ⟨chunksSize, fun f a => { f with chunksSize := a }, fun _ _ => rfl⟩),
    Arguments.required "chunks-total-count" kChunksTotalCount (parseNumber sizeT
      ⟨chunksTotalCount, fun f a => { f with chunksTotalCount := a }, fun _ _ => rfl⟩),
    Arguments.required "connection" kConnection (parseConnectionType
      ⟨connectionType, fun f a => { f with connectionType := a }, fun _ _ => rfl⟩),
    Arguments.required "connection-buffer-size" kConnectionBufferSize (parseNumber sizeT
      ⟨connectionBufferSize, fun f a => { f with connectionBufferSize := a }, fun _ _ => rfl⟩),
    Arguments.optional "environment-producer-cpu" kEnvironmentProducerCpu (parseNumber cInt
      ⟨environmentProducerCpu, fun f a => { f with environmentProducerCpu := a }, fun _ _ => rfl⟩),
    Arguments.optional "environment-consumer-cpu" kEnvironmentConsumerCpu (parseNumber cInt
      ⟨environmentConsumerCpu, fun f a => { f with environmentConsumerCpu := a }, fun _ _ => rfl⟩)]

end RunTestArguments

/-- The programs; each reads its command line into a class of its own. -/
inductive Mode where
  | consumer
  | producer
  | analyzer
  | runTest

namespace Mode

def Fields : Mode → Type
  | .consumer => ConsumerArguments
  | .producer => ProducerArguments
  | .analyzer => AnalizerArguments
  | .runTest => RunTestArguments

def items : (m : Mode) → List (Item m.Fields)
  | .consumer => ConsumerArguments.items
  | .producer => ProducerArguments.items
  | .analyzer => AnalizerArguments.items
  | .runTest => RunTestArguments.items

/-- The fields as the initialisers of the class leave them. -/
def fields : (m : Mode) → m.Fields
  | .consumer => ({} : ConsumerArguments)
  | .producer => ({} : ProducerArguments)
  | .analyzer => ({} : AnalizerArguments)
  | .runTest => ({} : RunTestArguments)

def new (m : Mode) : Derived m.Fields := ⟨Arguments.new m.items, m.fields⟩

/-- The object after the calls, and every call with how it failed, if it did. -/
def parse (m : Mode) (calls : List Call) : Derived m.Fields × List (Call × Option Failure) :=
  Machine.run Derived.call m.new calls

end Mode
end IpcChecker.CommandLine
