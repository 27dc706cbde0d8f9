import IpcChecker.Host

/-!
# Tick lists and their statistics

`Measurer` keeps its ticks in a vector whose capacity says when it is full, and
`Statistics::Process` pairs the ticks of the two sides.
-/

namespace IpcChecker
set_option autoImplicit false

/-- The nanosecond count of a `steady_clock` time point. -/
abbrev TimeTick := Int64

/-- `capacity` is that of the vector and `itMeasurements` the iterator's position. -/
structure Measurer where
  measurements : List TimeTick
  capacity : Nat
  itMeasurements : Nat
  deriving DecidableEq

namespace Measurer

/-- What the constructor leaves: `reserve` on a fresh vector gives exactly the capacity asked
for. -/
def new (chunksTotalCount : UInt64) : Measurer where
  measurements := []
  capacity := chunksTotalCount.toNat
  itMeasurements := 0

/-- `sizeof(TimeTick)`. -/
def sizeofTimeTick : Nat := 8

/-- The constructor. -/
def construct {σ : Type} (chunksTotalCount : UInt64) : Action σ Measurer := do
  vectorReserve sizeofTimeTick chunksTotalCount
  return new chunksTotalCount

theorem construct_run {σ : Type} {chunksTotalCount : UInt64}
    (h : chunksTotalCount.toNat ≤ vectorMaxSize sizeofTimeTick) (s : σ) :
    (construct chunksTotalCount).run s = .ok (new chunksTotalCount) s := by
  unfold construct
  rw [vectorReserve_fits h]
  rfl

/-- `emplace_back`, which doubles the capacity of a full vector. -/
def emplaceBack (m : Measurer) (tick : TimeTick) : Measurer :=
  { m with
    measurements := m.measurements ++ [tick]
    capacity := if m.measurements.length = m.capacity then
        m.measurements.length + max m.measurements.length 1
      else m.capacity }

def pushBack (m : Measurer) (tick : TimeTick) : Measurer := m.emplaceBack tick

/-- `now` is the clock's reading. -/
def tick (m : Measurer) (now : TimeTick) : Measurer := m.emplaceBack now

def firstTick (m : Measurer) : Option TimeTick := m.measurements.head?

def lastTick (m : Measurer) : Option TimeTick := m.measurements.getLast?

def toFirst (m : Measurer) : Measurer := { m with itMeasurements := 0 }

def hasNext (m : Measurer) : Bool := m.itMeasurements != m.measurements.length

/-- The tick at the iterator, when it is not at the end, and the iterator moved on. -/
def next (m : Measurer) : Option (TimeTick × Measurer) :=
  m.measurements[m.itMeasurements]?.map fun tick =>
    (tick, { m with itMeasurements := m.itMeasurements + 1 })

def count (m : Measurer) : Nat := m.measurements.length

def isFull (m : Measurer) : Bool := m.measurements.length = m.capacity

/-- The ticks that `while (HasNext()) Next()` still walks over. -/
def remaining (m : Measurer) : List TimeTick := m.measurements.drop m.itMeasurements

/-- `HasNext` fails exactly where there is no next tick. -/
theorem next_eq_none_iff {m : Measurer} (h : m.itMeasurements ≤ m.measurements.length) :
    m.next = none ↔ m.hasNext = false := by
  unfold next hasNext
  rw [Option.map_eq_none_iff, List.getElem?_eq_none_iff, bne_eq_false_iff_eq]
  omega

theorem remaining_of_next {m m' : Measurer} {tick : TimeTick} (h : m.next = some (tick, m')) :
    m.remaining = tick :: m'.remaining := by
  obtain ⟨_, hget, heq⟩ := Option.map_eq_some_iff.mp h
  cases heq
  obtain ⟨hlt, rfl⟩ := List.getElem?_eq_some_iff.mp hget
  exact List.drop_eq_getElem_cons hlt

theorem remaining_of_next_none {m : Measurer} (h : m.next = none) : m.remaining = [] := by
  have hge := List.getElem?_eq_none_iff.mp (Option.map_eq_none_iff.mp h)
  exact List.drop_eq_nil_of_le hge

@[simp] theorem emplaceBack_count (m : Measurer) (tick : TimeTick) :
    (m.emplaceBack tick).count = m.count + 1 := List.length_append

theorem tick_count (m : Measurer) (now : TimeTick) : (m.tick now).count = m.count + 1 :=
  emplaceBack_count m now

theorem emplaceBack_of_lt {m : Measurer} (h : m.measurements.length < m.capacity)
    (tick : TimeTick) :
    m.emplaceBack tick = { m with measurements := m.measurements ++ [tick] } := by
  unfold emplaceBack
  rw [if_neg (by omega)]

end Measurer

namespace Statistics

/-- The loop of `Process`; a difference of ticks is taken where it does not overflow. -/
def shippings : List TimeTick → List TimeTick → List Int
  | producer :: producers, consumer :: consumers =>
    (consumer.toInt - producer.toInt) :: shippings producers consumers
  | _, _ => []

/-- `consumer.LastTick() - producer.FirstTick()`, when there are such ticks. -/
def totalTime (producer consumer : Measurer) : Option Int := do
  let last ← consumer.lastTick
  let first ← producer.firstTick
  return last.toInt - first.toInt

/-- The shippings and the total time handed to `ProcessInternal`. -/
def process {σ : Type} (producer consumer : Measurer) : Action σ (List Int × Option Int) := do
  assert (producer.count = consumer.count)
  let producer := producer.toFirst
  let consumer := consumer.toFirst
  return (shippings producer.remaining consumer.remaining, totalTime producer consumer)

theorem shippings_length (producers consumers : List TimeTick)
    (h : producers.length = consumers.length) :
    (shippings producers consumers).length = producers.length := by
  induction producers generalizing consumers with
  | nil => rfl
  | cons producer producers ih =>
    cases consumers with
    | nil => simp at h
    | cons consumer consumers => simpa [shippings] using ih consumers (by simpa using h)

theorem shippings_getElem? (producers consumers : List TimeTick) (i : Nat) :
    (shippings producers consumers)[i]? =
      (producers[i]?).bind fun p => (consumers[i]?).map fun c => c.toInt - p.toInt := by
  induction producers generalizing consumers i with
  | nil => simp [shippings]
  | cons producer producers ih =>
    cases consumers with
    | nil => cases i <;> simp [shippings]
    | cons consumer consumers =>
      cases i with
      | zero => simp [shippings]
      | succ i => simpa [shippings] using ih consumers i

theorem process_eq {σ : Type} {producer consumer : Measurer}
    (h : producer.count = consumer.count) :
    (process producer consumer : Action σ (List Int × Option Int)) =
      pure (shippings producer.measurements consumer.measurements,
        totalTime producer consumer) := by
  unfold process
  rw [assert_true h, pure_bind]
  rfl

end Statistics
end IpcChecker
