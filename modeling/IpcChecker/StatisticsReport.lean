import IpcChecker.Media
import IpcChecker.Quantiles
import IpcChecker.Shared.Text

/-!
# The report

`ProcessInternal` prints the total time and five quantiles, with separators between the
thousands. The numbers can be read back from the text; and for a clock that never goes
back they are ordered, from zero up to the total time.
-/

namespace IpcChecker.Statistics
open Shared
set_option autoImplicit false

/-- Groups of three digits from the last digit on, as `PrettyNumpunct` has them, over the digits
in reverse. -/
def insertSeparators : List UInt8 → List UInt8
  | a :: b :: c :: d :: rest => a :: b :: c :: 39 :: insertSeparators (d :: rest)
  | digits => digits

/-- An integer as the stream prints it. -/
def grouped (n : Int) : List UInt8 :=
  let digits := (insertSeparators (Decimal.toChars n.natAbs).reverse).reverse
  if n < 0 then 45 :: digits else digits

/-- What was printed so far. -/
abbrev Output : Type := List UInt8

def print (text : List UInt8) : Action Output Unit := modify fun output => output ++ text

/-- `duration_cast` to milliseconds truncates toward zero. -/
def milliseconds (totalTime : Int) : Int := totalTime.tdiv 1000000

def getQuantile (quantiles : Quantiles) (alpha : ℚ) : Action Output Int :=
  match quantiles.get alpha with
  | .ok value => pure value
  | .error e => throw e

def printQuantile (quantiles : Quantiles) (name : String) (alpha : ℚ) : Action Output Unit := do
  print (Text.bytes name)
  let value ← getQuantile quantiles alpha
  print (grouped value ++ Text.bytes "ns\n")

def newQuantiles (shippings : List Int) : Action Output Quantiles :=
  match Quantiles.new shippings with
  | .ok quantiles => pure quantiles
  | .error e => throw e

def processInternal (shippings : List Int) (totalTime : Int) : Action Output Unit := do
  print (Text.bytes "Total time: " ++ grouped (milliseconds totalTime) ++ Text.bytes "ms\n")
  let quantiles ← newQuantiles shippings
  printQuantile quantiles "0.9999 = " (9999 / 10000)
  printQuantile quantiles "0.999 = " (999 / 1000)
  printQuantile quantiles "0.99 = " (99 / 100)
  printQuantile quantiles "0.95 = " (95 / 100)
  printQuantile quantiles "0.5 = " (1 / 2)

/-- The numbers of a report. -/
@[ext]
structure Report where
  milliseconds : Int
  q9999 : Int
  q999 : Int
  q99 : Int
  q95 : Int
  q5 : Int
  deriving DecidableEq

def quantileLine (name : String) (value : Int) : List UInt8 :=
  Text.bytes name ++ (grouped value ++ Text.bytes "ns\n")

def Report.text (r : Report) : List UInt8 :=
  (Text.bytes "Total time: " ++ grouped r.milliseconds ++ Text.bytes "ms\n") ++
    quantileLine "0.9999 = " r.q9999 ++ quantileLine "0.999 = " r.q999 ++
    quantileLine "0.99 = " r.q99 ++ quantileLine "0.95 = " r.q95 ++ quantileLine "0.5 = " r.q5

/-! Reading the numbers back. -/

theorem mem_insertSeparators {b : UInt8} (digits : List UInt8) (h : b ∈ insertSeparators digits) :
    b ∈ digits ∨ b = 39 := by
  fun_induction insertSeparators digits with
  | case1 a₁ a₂ a₃ a₄ rest ih =>
    simp only [List.mem_cons] at h ⊢
    rcases h with h | h | h | h | h
    · exact .inl (.inl h)
    · exact .inl (.inr (.inl h))
    · exact .inl (.inr (.inr (.inl h)))
    · exact .inr h
    · have hrest := ih h
      simp only [List.mem_cons] at hrest
      exact hrest.imp_left fun h => .inr (.inr (.inr h))
  | case2 digits => exact .inl h

theorem filter_insertSeparators (digits : List UInt8) (h : 39 ∉ digits) :
    (insertSeparators digits).filter (· ≠ 39) = digits := by
  fun_induction insertSeparators digits with
  | case1 a₁ a₂ a₃ a₄ rest ih =>
    simp only [List.mem_cons, not_or] at h
    obtain ⟨h₁, h₂, h₃, h₄⟩ := h
    have hrest := ih (by simpa using h₄)
    simp only [List.filter_cons, ne_eq, Ne.symm h₁, Ne.symm h₂, Ne.symm h₃, not_false_eq_true,
      decide_true, if_true]
    simpa using hrest
  | case2 digits =>
    rw [List.filter_eq_self]
    intro b hb
    exact decide_eq_true fun hsame => h (hsame ▸ hb)

theorem separator_notMem (n : Nat) : 39 ∉ (Decimal.toChars n).reverse := by
  intro hmem
  have hdigit := (Decimal.denotes_toChars n).digits 39 (List.mem_reverse.mp hmem)
  cases hdigit

/-- Without the separators the number is printed in decimal. -/
theorem filter_grouped (n : Int) : (grouped n).filter (· ≠ 39) = Decimal.toString n := by
  have hdigits := filter_insertSeparators _ (separator_notMem n.natAbs)
  unfold grouped Decimal.toString
  by_cases hneg : n < 0
  · rw [if_pos hneg, if_pos hneg, List.filter_cons_of_pos (by decide), List.filter_reverse,
      hdigits, List.reverse_reverse]
  · rw [if_neg hneg, if_neg hneg, List.filter_reverse, hdigits, List.reverse_reverse]

theorem toChars_injective {m n : Nat} (h : Decimal.toChars m = Decimal.toChars n) : m = n := by
  have hm := (Decimal.denotes_toChars m).ofDigits
  rw [h, (Decimal.denotes_toChars n).ofDigits] at hm
  exact hm.symm

theorem toString_injective {m n : Int} (h : Decimal.toString m = Decimal.toString n) : m = n := by
  have hminus : ∀ (k : Nat) (rest : List UInt8), Decimal.toChars k ≠ 45 :: rest := by
    intro k rest hk
    have hdigit := (Decimal.denotes_toChars k).digits 45 (hk ▸ List.mem_cons_self)
    cases hdigit
  unfold Decimal.toString at h
  split at h
  · split at h
    · have habs := toChars_injective (List.tail_eq_of_cons_eq h)
      omega
    · exact absurd h.symm (hminus _ _)
  · split at h
    · exact absurd h (hminus _ _)
    · have habs := toChars_injective h
      omega

theorem grouped_injective {m n : Int} (h : grouped m = grouped n) : m = n := by
  apply toString_injective
  rw [← filter_grouped, ← filter_grouped, h]

/-- A printed number is of digits, separators and a sign, so that it ends where its unit begins. -/
theorem notMem_grouped {b : UInt8} (hdigit : Decimal.isDigit b = false) (hseparator : b ≠ 39)
    (hminus : b ≠ 45) (n : Int) : b ∉ grouped n := by
  have hdigits : b ∉ (insertSeparators (Decimal.toChars n.natAbs).reverse).reverse := by
    intro hmem
    rcases mem_insertSeparators _ (List.mem_reverse.mp hmem) with hmem | hsame
    · have hb := (Decimal.denotes_toChars _).digits b (List.mem_reverse.mp hmem)
      rw [hdigit] at hb
      cases hb
    · exact hseparator hsame
  unfold grouped
  split
  · exact fun hmem => (List.mem_cons.mp hmem).elim hminus hdigits
  · exact hdigits

theorem takeWhile_unit {b : UInt8} {number : List UInt8} (h : b ∉ number) (rest : List UInt8) :
    (number ++ b :: rest).takeWhile (· ≠ b) = number := by
  have hother : ∀ c ∈ number, decide (c ≠ b) = true := by
    intro c hc
    exact decide_eq_true fun hsame => h (hsame ▸ hc)
  rw [List.takeWhile_append_of_pos hother, List.takeWhile_cons_of_neg (by simp), List.append_nil]

theorem grouped_unit {m n : Int} {b : UInt8} {rest rest' : List UInt8}
    (hdigit : Decimal.isDigit b = false) (hseparator : b ≠ 39) (hminus : b ≠ 45)
    (h : grouped m ++ b :: rest = grouped n ++ b :: rest') : m = n ∧ rest = rest' := by
  have hnumber : grouped m = grouped n := by
    rw [← takeWhile_unit (notMem_grouped hdigit hseparator hminus m) rest, h,
      takeWhile_unit (notMem_grouped hdigit hseparator hminus n) rest']
  rw [hnumber] at h
  exact ⟨grouped_injective hnumber, List.tail_eq_of_cons_eq (List.append_cancel_left h)⟩

theorem quantileLine_unique {name : String} {m n : Int} {rest rest' : List UInt8}
    (h : quantileLine name m ++ rest = quantileLine name n ++ rest') : m = n ∧ rest = rest' := by
  unfold quantileLine at h
  simp only [List.append_assoc] at h
  have hline := List.append_cancel_left h
  obtain ⟨hnumber, hrest⟩ := grouped_unit (b := 110) rfl (by decide) (by decide) hline
  have hunit : Text.bytes "s\n" ++ rest = Text.bytes "s\n" ++ rest' := hrest
  exact ⟨hnumber, List.append_cancel_left hunit⟩

/-- The text of a report says what its numbers are. -/
theorem report_determines {r r' : Report} (h : r.text = r'.text) : r = r' := by
  unfold Report.text at h
  simp only [List.append_assoc] at h
  obtain ⟨hms, hrest⟩ := grouped_unit (b := 109) rfl (by decide) (by decide)
    (List.append_cancel_left h)
  have h₁ : Text.bytes "s\n" ++ _ = Text.bytes "s\n" ++ _ := hrest
  obtain ⟨h9999, h₂⟩ := quantileLine_unique (List.append_cancel_left h₁)
  obtain ⟨h999, h₃⟩ := quantileLine_unique h₂
  obtain ⟨h99, h₄⟩ := quantileLine_unique h₃
  obtain ⟨h95, h₅⟩ := quantileLine_unique h₄
  have h₆ : quantileLine "0.5 = " r.q5 ++ [] = quantileLine "0.5 = " r'.q5 ++ [] := by rw [h₅]
  exact Report.ext hms h9999 h999 h99 h95 (quantileLine_unique h₆).1

/-- What is printed for some numbers. -/
def sampleText : List UInt8 :=
  Text.bytes "Total time: 1'234ms\n" ++ Text.bytes "0.9999 = 56'789ns\n0.999 = 5'678ns\n" ++
    Text.bytes "0.99 = 567ns\n0.95 = 56ns\n0.5 = 5ns\n"

theorem report_determines_sample : ∃! r : Report, r.text = sampleText := by
  have htext : (⟨1234, 56789, 5678, 567, 56, 5⟩ : Report).text = sampleText := by decide
  exact ⟨_, htext, fun r h => report_determines (h.trans htext.symm)⟩

/-! What is printed. -/

/-- The report on a list of shippings. -/
def reportOf (q : Quantiles) (totalTime : Int) : Report where
  milliseconds := milliseconds totalTime
  q9999 := ⌊q.line (9999 / 10000)⌋
  q999 := ⌊q.line (999 / 1000)⌋
  q99 := ⌊q.line (99 / 100)⌋
  q95 := ⌊q.line (95 / 100)⌋
  q5 := ⌊q.line (1 / 2)⌋

theorem run_print_bind {α : Type} (text : List UInt8) (f : Unit → Action Output α)
    (output : Output) : (print text >>= f).run output = (f ()).run (output ++ text) :=
  run_modify_bind _ _ _

theorem printQuantile_run {q : Quantiles} {alpha : ℚ} (name : String) (h0 : 0 ≤ alpha)
    (h1 : alpha ≤ 1) (output : Output) : (printQuantile q name alpha).run output =
      .ok () (output ++ quantileLine name ⌊q.line alpha⌋) := by
  have hvalue : getQuantile q alpha = pure ⌊q.line alpha⌋ := by
    unfold getQuantile
    rw [Quantiles.get_eq h0 h1]
  unfold printQuantile quantileLine
  rw [run_print_bind, hvalue, pure_bind]
  rw [← List.append_assoc]
  rfl

theorem processInternal_run {shippings : List Int} {q : Quantiles}
    (hnew : Quantiles.new shippings = .ok q) (totalTime : Int) (output : Output) :
    (processInternal shippings totalTime).run output =
      .ok () (output ++ (reportOf q totalTime).text) := by
  have hquantiles : newQuantiles shippings = pure q := by
    unfold newQuantiles
    rw [hnew]
  unfold processInternal
  rw [run_print_bind, hquantiles, pure_bind]
  rw [run_bind_ok (printQuantile_run _ (by norm_num) (by norm_num) _)]
  rw [run_bind_ok (printQuantile_run _ (by norm_num) (by norm_num) _)]
  rw [run_bind_ok (printQuantile_run _ (by norm_num) (by norm_num) _)]
  rw [run_bind_ok (printQuantile_run _ (by norm_num) (by norm_num) _)]
  rw [printQuantile_run _ (by norm_num) (by norm_num)]
  simp only [Report.text, reportOf, List.append_assoc]

/-- The quantiles of a report in their order, from zero to the total time. -/
structure Report.Consistent (r : Report) (totalTime : Int) : Prop where
  milliseconds : r.milliseconds = totalTime / 1000000
  nonneg : 0 ≤ r.q5
  q5_le : r.q5 ≤ r.q95
  q95_le : r.q95 ≤ r.q99
  q99_le : r.q99 ≤ r.q999
  q999_le : r.q999 ≤ r.q9999
  total : r.q9999 ≤ totalTime

theorem reportOf_consistent {q : Quantiles} {totalTime : Int}
    (h : ∀ x ∈ q.shippings, 0 ≤ x ∧ x ≤ totalTime) :
    (reportOf q totalTime).Consistent totalTime := by
  have hleast := h _ (q.shipping_mem 0)
  have hgreatest := h _ (q.shipping_mem (q.size - 1))
  have hmono : ∀ {a b : ℚ}, 0 ≤ a → a ≤ b → ⌊q.line a⌋ ≤ ⌊q.line b⌋ := fun h0 hab =>
    Int.floor_mono (Quantiles.line_mono h0 hab)
  refine ⟨?_, ?_, hmono (by norm_num) (by norm_num), hmono (by norm_num) (by norm_num),
    hmono (by norm_num) (by norm_num), hmono (by norm_num) (by norm_num), ?_⟩
  · exact Int.tdiv_eq_ediv_of_nonneg (hleast.1.trans hleast.2)
  · calc (0 : Int) ≤ q.shipping 0 := hleast.1
      _ = ⌊q.line 0⌋ := by rw [Quantiles.line_zero, Int.floor_intCast]
      _ ≤ ⌊q.line (1 / 2)⌋ := hmono le_rfl (by norm_num)
  · calc ⌊q.line (9999 / 10000)⌋ ≤ ⌊q.line 1⌋ := hmono (by norm_num) (by norm_num)
      _ = q.shipping (q.size - 1) := by rw [Quantiles.line_one, Int.floor_intCast]
      _ ≤ totalTime := hgreatest.2

/-! The report on a measurement. -/

theorem shippings_bounds {producers consumers : List TimeTick} {first last : TimeTick}
    (hproducers : (first :: producers).Pairwise (· ≤ ·))
    (hconsumers : (consumers ++ [last]).Pairwise (· ≤ ·))
    (hle : ∀ (i : Nat) (p c : TimeTick), (first :: producers)[i]? = some p →
      (consumers ++ [last])[i]? = some c → p ≤ c) :
    ∀ x ∈ shippings (first :: producers) (consumers ++ [last]),
      0 ≤ x ∧ x ≤ last.toInt - first.toInt := by
  intro x hx
  obtain ⟨i, hi⟩ := List.mem_iff_getElem?.mp hx
  rw [shippings_getElem?] at hi
  obtain ⟨p, hp, hrest⟩ := Option.bind_eq_some_iff.mp hi
  obtain ⟨c, hc, rfl⟩ := Option.map_eq_some_iff.mp hrest
  have hpc := Int64.le_iff_toInt_le.mp (hle i p c hp hc)
  have hfirst : first.toInt ≤ p.toInt := by
    rcases List.mem_cons.mp (List.mem_of_getElem? hp) with rfl | hlater
    · exact le_rfl
    · exact Int64.le_iff_toInt_le.mp ((List.pairwise_cons.mp hproducers).1 p hlater)
  have hlast : c.toInt ≤ last.toInt := by
    rcases List.mem_append.mp (List.mem_of_getElem? hc) with hearlier | hend
    · have hrel := (List.pairwise_append.mp hconsumers).2.2 c hearlier last List.mem_cons_self
      exact Int64.le_iff_toInt_le.mp hrel
    · rw [List.mem_singleton.mp hend]
  omega

end IpcChecker.Statistics

namespace IpcChecker.Actors
open Shared
set_option autoImplicit false

section Report
variable {setup : Setup} {transport : Connection → Transport} {generator : SimpleRoundGenerator}
variable {chunksTotalCount : UInt64} {buffers : Thread → Buffer}
variable {readings : Thread → List TimeTick} {es : List (Thread × Option TimeTick)}
variable {s : Network.State setup.network (links transport)}

/-- A run to the end has sent all chunks and read all ticks off the clocks. -/
theorem measured_of_ended (hbuffers : ∀ i, (buffers i).Valid)
    (h : setup.Carries transport generator.msgs chunksTotalCount (readings .producer)
      (readings .consumer))
    (hrun : Run (setup.network.Steps (links transport))
      (setup.start (links transport) generator (.same chunksTotalCount) buffers readings
        fun _ => []) es s)
    (hend : Ended (setup.network.Steps (links transport)) s) :
    Measured generator.msgs (readings .producer) (readings .consumer) s ∧
      es.filterMap producerReading = readings .producer ∧
      es.filterMap consumerReading = readings .consumer := by
  obtain ⟨t, ⟨es', hrun'⟩, hmeasured, hproducer, hconsumer⟩ := leads_measured h hbuffers rfl rfl
  obtain ⟨rfl, _⟩ := Commuting.same_end
    (Network.commuting setup.network fun c => (transport c).queue.channel)
    (Network.ended_of_halt hmeasured.halts) hrun' hrun hend
  have hahead : AheadAt es s := Run.invariant_history (I := AheadAt)
    (aheadAt_start generator (.same chunksTotalCount) buffers readings)
    (fun _ _ _ _ h => h.step) hrun
  exact ⟨hmeasured, hahead.producerTicks.symm.trans hproducer,
    hahead.consumerTicks.symm.trans hconsumer⟩

/-- Where the clock never goes back. -/
theorem ticks_ordered
    (hrun : Run (setup.network.Steps (links transport))
      (setup.start (links transport) generator (.same chunksTotalCount) buffers readings
        fun _ => []) es s)
    (hmono : (es.filterMap Prod.snd).Pairwise (· ≤ ·)) :
    (es.filterMap producerReading).Pairwise (· ≤ ·) ∧
      (es.filterMap consumerReading).Pairwise (· ≤ ·) ∧
      ∀ (i : Nat) (p c : TimeTick), (es.filterMap producerReading)[i]? = some p →
        (es.filterMap consumerReading)[i]? = some c → p ≤ c := by
  have hahead : AheadAt es s := Run.invariant_history (I := AheadAt)
    (aheadAt_start generator (.same chunksTotalCount) buffers readings)
    (fun _ _ _ _ h => h.step) hrun
  have hpairs := List.pairwise_filterMap.mp hmono
  refine ⟨?_, ?_, ?_⟩
  · apply List.pairwise_filterMap.mpr
    apply hpairs.imp
    intro e e' hle a ha b hb
    exact hle a (reading_of_producerReading ha) b (reading_of_producerReading hb)
  · apply List.pairwise_filterMap.mpr
    apply hpairs.imp
    intro e e' hle a ha b hb
    exact hle a (reading_of_consumerReading ha) b (reading_of_consumerReading hb)
  · intro i p c hp hc
    apply hahead.order.readings_le ?_ hp hc
    apply hpairs.imp
    intro e e' hle a ha b hb
    exact hle a (reading_of_producerReading ha) b (reading_of_consumerReading hb)

end Report

/-- What is printed after a measurement: the quantiles of its shippings in their order, none below
zero or above the total time. -/
def Reported {setup : Setup} {link : Connection → Link Buffer Failure}
    (s : Network.State setup.network link) : Prop :=
  ∃ (values : List Int) (totalTime : Int) (r : Statistics.Report),
    (Statistics.process (producerWorkerOf s).measurer (consumerWorkerOf s).measurer).run () =
      .ok (values, some totalTime) () ∧
    (Statistics.processInternal values totalTime).run [] = .ok () r.text ∧
    r.Consistent totalTime

theorem Reported.of_process {setup : Setup} {link link' : Connection → Link Buffer Failure}
    {s : Network.State setup.network link} {t : Network.State setup.network link'}
    (h : Reported s) (hsame : t.process = s.process) : Reported t := by
  obtain ⟨process, readings, channel⟩ := t
  cases hsame
  exact h

section Ended
variable {setup : Setup} {transport : Connection → Transport} {generator : SimpleRoundGenerator}
variable {chunksTotalCount : UInt64} {buffers : Thread → Buffer}
variable {readings : Thread → List TimeTick} {es : List (Thread × Option TimeTick)}

theorem reported_of_ended {s : Network.State setup.network (links transport)}
    (hbuffers : ∀ i, (buffers i).Valid)
    (h : setup.Carries transport generator.msgs chunksTotalCount (readings .producer)
      (readings .consumer)) (hpositive : 0 < chunksTotalCount.toNat)
    (hrun : Run (setup.network.Steps (links transport))
      (setup.start (links transport) generator (.same chunksTotalCount) buffers readings
        fun _ => []) es s)
    (hend : Ended (setup.network.Steps (links transport)) s)
    (hmono : (es.filterMap Prod.snd).Pairwise (· ≤ ·)) : Reported s := by
  obtain ⟨hmeasured, hproducer, hconsumer⟩ := measured_of_ended hbuffers h hrun hend
  obtain ⟨hproducers, hconsumers, hle⟩ := ticks_ordered hrun hmono
  have hstatistics := hmeasured.statistics (h.producerTicks_count.trans h.consumerTicks_count.symm)
  have hlength := Statistics.shippings_length _ _
    (h.producerTicks_count.trans h.consumerTicks_count.symm)
  have hpcount : 0 < (readings .producer).length := h.producerTicks_count.symm ▸ hpositive
  have hccount : 0 < (readings .consumer).length := h.consumerTicks_count.symm ▸ hpositive
  obtain ⟨first, producers, hps⟩ : ∃ first producers, readings .producer = first :: producers :=
    List.exists_cons_of_length_pos hpcount
  obtain ⟨consumers, last, hcs⟩ : ∃ consumers last, readings .consumer = consumers ++ [last] :=
    (List.eq_nil_or_concat' _).resolve_left (List.length_pos_iff.mp hccount)
  rw [hproducer, hps] at hproducers hle
  rw [hconsumer, hcs] at hconsumers hle
  rw [hps, hcs] at hstatistics hlength
  have hne : Statistics.shippings (first :: producers) (consumers ++ [last]) ≠ [] :=
    List.length_pos_iff.mp (hlength ▸ Nat.succ_pos _)
  have htotal : totalOf (first :: producers) (consumers ++ [last]) =
      some (last.toInt - first.toInt) := by
    unfold totalOf
    rw [List.getLast?_concat]
    rfl
  rw [htotal] at hstatistics
  obtain ⟨q, hnew, _, hsorted⟩ := Quantiles.new_eq hne
  refine ⟨_, _, _, hstatistics, Statistics.processInternal_run hnew _ [], ?_⟩
  apply Statistics.reportOf_consistent
  intro x hx
  rw [hsorted, List.mem_insertionSort] at hx
  exact Statistics.shippings_bounds hproducers hconsumers hle x hx

/-- The same over links that answer as these connections do. -/
theorem reported_over {link : Connection → Link Buffer Failure}
    (r : ∀ c, Refinement (link c) (links transport c))
    (hadmits : ∀ (c : Connection) (b : Buffer),
      (transport c).weight b.contents ≤ (transport c).capacity → (r c).Admits b)
    {channel : ∀ c, (link c).State} {s : Network.State setup.network link}
    (hbuffers : ∀ i, (buffers i).Valid)
    (h : setup.Carries transport generator.msgs chunksTotalCount (readings .producer)
      (readings .consumer)) (hempty : ∀ c, (r c).Related (channel c) [])
    (hpositive : 0 < chunksTotalCount.toNat)
    (hrun : Run (setup.network.Steps link)
      (setup.start link generator (.same chunksTotalCount) buffers readings channel) es s)
    (hend : Ended (setup.network.Steps link) s)
    (hmono : (es.filterMap Prod.snd).Pairwise (· ≤ ·)) : Reported s := by
  have hadmitted : ∀ fs (u : Network.State setup.network (links transport)),
      Run (setup.network.Steps (links transport))
        (setup.start (links transport) generator (.same chunksTotalCount) buffers readings
          fun _ => []) fs u → Network.Admitted r u.process :=
    fun fs u => admitted_of_carries r hadmits hbuffers h
  obtain ⟨u, hu, hrel⟩ := (related_start r hempty).run hadmitted hrun
  have hended := hrel.ended (hadmitted _ _ hu) hend
  exact (reported_of_ended hbuffers h hpositive hu hended hmono).of_process hrel.process

end Ended

/-- A clock that stands still. -/
def stillReadings : Thread → List TimeTick
  | .producer => List.replicate 2 7
  | .consumer => List.replicate 2 7
  | _ => []

theorem still_ordered {es : List (Thread × Option TimeTick)} {setup : Setup}
    {link : Connection → Link Buffer Failure} {s t : Network.State setup.network link}
    (hrun : Run (setup.network.Steps link) s es t)
    (hstill : ∀ i, ∀ now ∈ s.readings i, now = 7) : (es.filterMap Prod.snd).Pairwise (· ≤ ·) := by
  have hsame : ∀ now ∈ es.filterMap Prod.snd, now = 7 := by
    intro now hnow
    obtain ⟨⟨i, r⟩, he, hr⟩ := List.mem_filterMap.mp hnow
    apply hstill i
    rw [← Network.readings_append hrun i]
    apply List.mem_append_left
    exact List.mem_filterMap.mpr ⟨(i, r), List.mem_filter.mpr ⟨he, decide_eq_true rfl⟩, hr⟩
  apply List.pairwise_of_forall_mem_list
  intro a ha b hb
  rw [hsame a ha, hsame b hb]
  exact Int64.le_refl 7

theorem stillReadings_same (i : Thread) : ∀ now ∈ stillReadings i, now = 7 := by
  intro now hnow
  cases i with
  | producer => exact List.eq_of_mem_replicate hnow
  | consumer => exact List.eq_of_mem_replicate hnow
  | consumerWorker => cases hnow
  | producerWorker => cases hnow

end IpcChecker.Actors
