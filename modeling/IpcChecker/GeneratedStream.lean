import IpcChecker.Generator

/-!
# The generated stream

The messages of `SimpleRoundGenerator` in closed form. The running index is a 64-bit
word; the stream goes on without a break up to the end of the lap in which it wraps.
-/

namespace IpcChecker
open Shared
set_option autoImplicit false

namespace SimpleRoundGenerator

theorem kAlphabet_inj {i j : Nat} (hi : i < 36) (h : kAlphabet[i]? = kAlphabet[j]?) : i = j := by
  have hnodup : kAlphabet.Nodup := by decide
  exact (List.getElem?_inj (by rw [kAlphabet_length]; exact hi) hnodup).mp h

/-! The inner loop. -/

section Loop
variable (chunksSize : UInt64)

theorem sliceLoop_round {len : UInt64} (hlen : len ≠ 0) (alphabetGlobalIdx : UInt64)
    (msg : List UInt8) :
    (sliceLoop chunksSize len alphabetGlobalIdx msg).1 =
      let count := sliceSize (alphabetSize chunksSize) len alphabetGlobalIdx
      (sliceLoop chunksSize (len - count) (alphabetGlobalIdx + count)
        (msg ++ (kAlphabet.drop (alphabetGlobalIdx % alphabetSize chunksSize).toNat).take
          count.toNat)).1 := by
  rw [sliceLoop, dif_neg hlen]

/-- The loop only appends, and what it appends does not depend on what is there. -/
theorem sliceLoop_append (len alphabetGlobalIdx : UInt64) (msg : List UInt8) :
    (sliceLoop chunksSize len alphabetGlobalIdx msg).1 =
      msg ++ (sliceLoop chunksSize len alphabetGlobalIdx []).1 := by
  induction hn : len.toNat using Nat.strongRecOn generalizing len alphabetGlobalIdx msg with
  | ind n ih =>
    by_cases hlen : len = 0
    · subst hlen
      rw [sliceLoop, dif_pos rfl, sliceLoop, dif_pos rfl, List.append_nil]
    · have hsize := alphabetSize_pos chunksSize
      have hbounds := sliceSize_bounds hsize hlen alphabetGlobalIdx
      have hless := sub_sliceSize_toNat hsize hlen alphabetGlobalIdx
      rw [sliceLoop_round chunksSize hlen, sliceLoop_round chunksSize hlen]
      rw [ih _ (by omega) _ _ _ rfl, ih _ (by omega) _ _ ([] ++ _) rfl, List.nil_append,
        List.append_assoc]

theorem sliceLoop_index (len alphabetGlobalIdx : UInt64) (msg : List UInt8) :
    (sliceLoop chunksSize len alphabetGlobalIdx msg).2 = alphabetGlobalIdx + len := by
  induction len, alphabetGlobalIdx, msg using sliceLoop.induct chunksSize with
  | case1 alphabetGlobalIdx msg =>
    rw [sliceLoop, dif_pos rfl, UInt64.add_zero]
  | case2 len alphabetGlobalIdx msg hlen alphabetIdx count ih =>
    rw [sliceLoop, dif_neg hlen]
    refine ih.trans ?_
    rw [UInt64.add_assoc, UInt64.add_comm count, UInt64.sub_add_cancel]

/-- The letters at `n` places from place `p` on, in an alphabet of `a` letters. -/
def letters (a p n : Nat) : List UInt8 := Circular.load a (bytesAt kAlphabet) p n

theorem letters_length (a p n : Nat) : (letters a p n).length = n := Circular.load_length _ _ _ _

theorem letters_getElem? {a p n j : Nat} (ha : 0 < a) (ha36 : a ≤ 36) (hj : j < n) :
    (letters a p n)[j]? = kAlphabet[(p + j) % a]? := by
  have hlt : (p + j) % a < kAlphabet.length := by
    have := Nat.mod_lt (p + j) ha
    rw [kAlphabet_length]
    omega
  simp [letters, Circular.load, hj, Memory.ofList, hlt]

theorem slice_eq_letters {a p n : Nat} (ha : 0 < a) (ha36 : a ≤ 36) (h : p % a + n ≤ a) :
    (kAlphabet.drop (p % a)).take n = letters a p n := by
  apply List.ext_getElem?
  intro j
  rcases Nat.lt_or_ge j n with hj | hj
  · rw [letters_getElem? ha ha36 hj, Circular.slot_add_of_lt (by omega),
      List.getElem?_take_of_lt hj, List.getElem?_drop]
  · have hslice : ((kAlphabet.drop (p % a)).take n).length = n := slice_length (by omega)
    rw [List.getElem?_eq_none (by omega),
      List.getElem?_eq_none (by rw [letters_length]; exact hj)]

/-- The first round of the loop takes letters up to the alphabet's end or the message's. -/
theorem sliceLoop_first {len : UInt64} (hlen : len ≠ 0) (alphabetGlobalIdx : UInt64) :
    ∃ count : UInt64,
      count.toNat = min ((alphabetSize chunksSize).toNat -
        alphabetGlobalIdx.toNat % (alphabetSize chunksSize).toNat) len.toNat ∧
      (len - count).toNat = len.toNat - count.toNat ∧
      (sliceLoop chunksSize len alphabetGlobalIdx []).1 =
        letters (alphabetSize chunksSize).toNat alphabetGlobalIdx.toNat count.toNat ++
          (sliceLoop chunksSize (len - count) (alphabetGlobalIdx + count) []).1 := by
  have hsize := alphabetSize_pos chunksSize
  obtain ⟨_, hinside, _⟩ := sliceSize_bounds hsize hlen alphabetGlobalIdx
  rw [UInt64.toNat_mod] at hinside
  refine ⟨sliceSize (alphabetSize chunksSize) len alphabetGlobalIdx,
    sliceSize_toNat hsize _ _, sub_sliceSize_toNat hsize hlen _, ?_⟩
  rw [sliceLoop_round chunksSize hlen, sliceLoop_append, List.nil_append, UInt64.toNat_mod,
    slice_eq_letters hsize (alphabetSize_le chunksSize) hinside]

theorem sliceLoop_zero (alphabetGlobalIdx : UInt64) :
    (sliceLoop chunksSize 0 alphabetGlobalIdx []).1 = [] := by
  rw [sliceLoop, dif_pos rfl]

/-- Up to the end of the lap in which the index wraps, the letters follow each other. -/
theorem sliceLoop_eq_letters (len alphabetGlobalIdx : UInt64)
    (h : alphabetGlobalIdx.toNat + len.toNat + 16 ≤ 2 ^ 64 + (alphabetSize chunksSize).toNat) :
    (sliceLoop chunksSize len alphabetGlobalIdx []).1 =
      letters (alphabetSize chunksSize).toNat alphabetGlobalIdx.toNat len.toNat := by
  induction hn : len.toNat using Nat.strongRecOn generalizing len alphabetGlobalIdx with
  | ind n ih =>
    subst hn
    by_cases hlen : len = 0
    · subst hlen
      rw [sliceLoop_zero]
      rfl
    · obtain ⟨count, hcount, hrest, hfirst⟩ := sliceLoop_first chunksSize hlen alphabetGlobalIdx
      rw [hfirst]
      rcases Nat.lt_or_ge count.toNat len.toNat with hless | hall
      · -- The round ended at the end of a lap, which is not the last one.
        have hbelow : alphabetGlobalIdx.toNat + count.toNat < 2 ^ 64 := by
          rcases alphabetSize_cases chunksSize with hsize | hsize
          · rw [hsize] at hcount h
            omega
          · rw [hsize] at hcount h
            omega
        have hnext : (alphabetGlobalIdx + count).toNat =
            alphabetGlobalIdx.toNat + count.toNat := by
          rw [UInt64.toNat_add, Nat.mod_eq_of_lt hbelow]
        have hpos : 0 < count.toNat := by
          have := Nat.mod_lt alphabetGlobalIdx.toNat (alphabetSize_pos chunksSize)
          omega
        rw [ih _ (by omega) _ _ (by omega) rfl, hnext, hrest]
        unfold letters
        rw [← Circular.load_add]
        congr 1
        omega
      · have hdone : len - count = 0 := by
          rw [← UInt64.toNat_inj, hrest]
          exact Nat.sub_eq_zero_of_le hall
        have heq : count.toNat = len.toNat := by omega
        rw [hdone, sliceLoop_zero, List.append_nil, heq]

/-- A message starts with the letter at its index, whether or not the index wraps later. -/
theorem sliceLoop_head {len : UInt64} (hlen : len ≠ 0) (alphabetGlobalIdx : UInt64) :
    (sliceLoop chunksSize len alphabetGlobalIdx []).1[0]? =
      kAlphabet[alphabetGlobalIdx.toNat % (alphabetSize chunksSize).toNat]? := by
  obtain ⟨count, hcount, _, hfirst⟩ := sliceLoop_first chunksSize hlen alphabetGlobalIdx
  have hsize := alphabetSize_pos chunksSize
  have hpos : 0 < count.toNat := by
    have hlt := Nat.mod_lt alphabetGlobalIdx.toNat hsize
    have hne := mt UInt64.toNat_inj.mp hlen
    rw [UInt64.toNat_zero] at hne
    omega
  rw [hfirst, List.getElem?_append_left (by rw [letters_length]; exact hpos),
    letters_getElem? hsize (alphabetSize_le chunksSize) hpos, Nat.add_zero]

/-- Past the lap in which the index wraps, the stream goes on at letter `size - 16`. -/
theorem sliceLoop_wrap (len alphabetGlobalIdx : UInt64) {p : Nat} (hp : p < len.toNat)
    (h : alphabetGlobalIdx.toNat + p + 16 = 2 ^ 64 + (alphabetSize chunksSize).toNat) :
    (sliceLoop chunksSize len alphabetGlobalIdx []).1[p]? =
      kAlphabet[(alphabetSize chunksSize).toNat - 16]? := by
  induction hn : len.toNat using Nat.strongRecOn generalizing len alphabetGlobalIdx p with
  | ind n ih =>
    subst hn
    have hlen : len ≠ 0 := by
      rintro rfl
      exact absurd hp (Nat.not_lt_zero p)
    obtain ⟨count, hcount, hrest, hfirst⟩ := sliceLoop_first chunksSize hlen alphabetGlobalIdx
    have hsize := alphabetSize_cases chunksSize
    have hmod := Nat.mod_lt alphabetGlobalIdx.toNat (alphabetSize_pos chunksSize)
    have hidx := alphabetGlobalIdx.toNat_lt
    rcases Nat.lt_or_ge (alphabetGlobalIdx.toNat + count.toNat) (2 ^ 64) with hbelow | hwraps
    · have hnext : (alphabetGlobalIdx + count).toNat =
          alphabetGlobalIdx.toNat + count.toNat := by
        rw [UInt64.toNat_add, Nat.mod_eq_of_lt hbelow]
      rw [hfirst, List.getElem?_append_right (by rw [letters_length]; omega), letters_length]
      exact ih _ (by omega) _ _ (by omega) (by omega) rfl
    · -- This round ends the last lap.
      have hlast : count.toNat = p := by
        rcases hsize with hs | hs
        · rw [hs] at hcount h
          omega
        · rw [hs] at hcount h
          omega
      have hnext : (alphabetGlobalIdx + count).toNat = (alphabetSize chunksSize).toNat - 16 := by
        rw [UInt64.toNat_add, Nat.mod_eq_sub_mod hwraps, Nat.mod_eq_of_lt (by omega)]
        omega
      have hmore : len - count ≠ 0 := by
        intro hzero
        rw [hzero, UInt64.toNat_zero] at hrest
        omega
      rw [hfirst, List.getElem?_append_right (by rw [letters_length]; omega), letters_length,
        hlast, Nat.sub_self, sliceLoop_head chunksSize hmore, hnext,
        Nat.mod_eq_of_lt (by omega)]

end Loop

/-! The outer loop. -/

section Messages
variable {chunksSize : UInt64} (h : chunksSize.toNat < 2 ^ 63)

/-- The running index at which message `i` starts. -/
def startIndex (chunksSize : UInt64) (i : Nat) : UInt64 := UInt64.ofNat (i * chunksSize.toNat)

theorem startIndex_toNat (chunksSize : UInt64) (i : Nat) :
    (startIndex chunksSize i).toNat = i * chunksSize.toNat % 2 ^ 64 := UInt64.toNat_ofNat'

theorem startIndex_add (chunksSize : UInt64) (i : Nat) (alphabetGlobalIdx : UInt64) :
    alphabetGlobalIdx + chunksSize + startIndex chunksSize i =
      alphabetGlobalIdx + startIndex chunksSize (i + 1) := by
  unfold startIndex
  rw [Nat.add_mul, Nat.one_mul, UInt64.ofNat_add, UInt64.ofNat_toNat, UInt64.add_assoc,
    UInt64.add_comm chunksSize]

theorem messages_eq {σ : Type} (n : Nat) : ∀ (alphabetGlobalIdx : UInt64) (s : σ),
    (messages chunksSize n alphabetGlobalIdx).run s =
      .ok ((List.range n).map fun i => message h (alphabetGlobalIdx + startIndex chunksSize i))
        s := by
  induction n with
  | zero =>
    intro alphabetGlobalIdx s
    rfl
  | succ n ih =>
    intro alphabetGlobalIdx s
    rw [messages, dif_pos h, run_bind_ok (ih _ s), List.range_succ_eq_map, List.map_cons,
      List.map_map, sliceLoop_index]
    have hstart : alphabetGlobalIdx + startIndex chunksSize 0 = alphabetGlobalIdx := by
      unfold startIndex
      rw [Nat.zero_mul]
      exact UInt64.add_zero _
    have hrest : (fun i => message h (alphabetGlobalIdx + chunksSize + startIndex chunksSize i)) =
        (fun i => message h (alphabetGlobalIdx + startIndex chunksSize i)) ∘ Nat.succ := by
      funext i
      rw [startIndex_add]
      rfl
    rw [hstart, hrest]
    rfl

theorem new_eq {σ : Type} {chunksTotalCount : UInt64}
    (hcount : chunksTotalCount.toNat ≤ vectorMaxSize sizeofString) (s : σ) :
    (new chunksSize chunksTotalCount).run s =
      .ok ⟨(List.range chunksTotalCount.toNat).map fun i => message h (startIndex chunksSize i), 0⟩
        s := by
  have hrun := messages_eq h chunksTotalCount.toNat 0 s
  simp only [UInt64.zero_add] at hrun
  unfold new
  rw [vectorReserve_fits hcount, pure_bind, run_bind_ok hrun]
  rfl

theorem messages_getElem? {n i : Nat} {msg : StdString}
    (hi : ((List.range n).map fun i => message h (startIndex chunksSize i))[i]? = some msg) :
    i < n ∧ msg = message h (startIndex chunksSize i) := by
  obtain ⟨hlt, hget⟩ := List.getElem?_eq_some_iff.mp hi
  rw [List.getElem_map, List.getElem_range] at hget
  exact ⟨by simpa using hlt, hget.symm⟩

theorem new_throws {σ : Type} (hbig : 2 ^ 63 ≤ chunksSize.toNat) {chunksTotalCount : UInt64}
    (hcount : chunksTotalCount ≠ 0) (s : σ) :
    (new chunksSize chunksTotalCount).run s = .error (.exception "std::length_error") s := by
  rcases Nat.lt_or_ge (vectorMaxSize sizeofString) chunksTotalCount.toNat with hmany | hfew
  · exact new_rejects chunksSize hmany s
  have hne := mt UInt64.toNat_inj.mp hcount
  rw [UInt64.toNat_zero] at hne
  obtain ⟨n, hn⟩ := Nat.exists_eq_succ_of_ne_zero hne
  unfold new
  rw [vectorReserve_fits hfew, pure_bind, hn, messages, dif_neg (by omega)]
  exact run_throw_bind _ _ s

end Messages

/-! Reading the messages back. -/

/-- The messages that `while (HasNext()) Next()` takes, within the given number of rounds. -/
def enumerate : Nat → SimpleRoundGenerator → Option (List StdString × SimpleRoundGenerator)
  | 0, _ => none
  | fuel + 1, g =>
    if g.hasNext then do
      let (msg, g) ← g.next
      let (msgs, g) ← enumerate fuel g
      return (msg :: msgs, g)
    else some ([], g)

theorem enumerate_eq (fuel : Nat) : ∀ g : SimpleRoundGenerator, g.itMsgs ≤ g.msgs.length →
    g.msgs.length < g.itMsgs + fuel →
    enumerate fuel g = some (g.msgs.drop g.itMsgs, { g with itMsgs := g.msgs.length }) := by
  induction fuel with
  | zero =>
    intro g hle hlt
    omega
  | succ fuel ih =>
    intro g hle hlt
    rcases Nat.lt_or_eq_of_le hle with hmore | hend
    · have hhas : g.hasNext = true := bne_iff_ne.mpr (Nat.ne_of_lt hmore)
      have hnext : g.next = some (g.msgs[g.itMsgs], { g with itMsgs := g.itMsgs + 1 }) := by
        unfold next
        rw [List.getElem?_eq_getElem hmore]
        rfl
      have hrest := ih { g with itMsgs := g.itMsgs + 1 } hmore (by simp only; omega)
      rw [enumerate, if_pos hhas, hnext, List.drop_eq_getElem_cons hmore]
      simp only [Option.bind_eq_bind, Option.bind_some, hrest, Option.pure_def]
    · have hhas : g.hasNext = false := bne_eq_false_iff_eq.mpr hend
      rw [enumerate, hhas, List.drop_eq_nil_of_le (Nat.le_of_eq hend.symm), ← hend]
      rfl

theorem alphabetSize_toNat (chunksSize : UInt64) :
    (alphabetSize chunksSize).toNat = if chunksSize.toNat % 36 = 0 then 35 else 36 := by
  have hzero : chunksSize % kAlphabetSize = 0 ↔ chunksSize.toNat % 36 = 0 := by
    rw [← UInt64.toNat_inj, UInt64.toNat_mod]
    rfl
  unfold alphabetSize
  by_cases hmod : chunksSize.toNat % 36 = 0
  · rw [if_neg (not_not_intro (hzero.mpr hmod)), if_pos hmod]
    rfl
  · rw [if_pos (mt hzero.mp hmod), if_neg hmod]
    rfl

/-- A message that does not reach past the lap in which the index wraps. -/
theorem message_getElem? {chunksSize : UInt64} (h : chunksSize.toNat < 2 ^ 63)
    {alphabetGlobalIdx : UInt64}
    (hlap : alphabetGlobalIdx.toNat + chunksSize.toNat + 16 ≤
      2 ^ 64 + (alphabetSize chunksSize).toNat) {j : Nat} (hj : j < chunksSize.toNat) :
    (message h alphabetGlobalIdx).bytes[j]? =
      kAlphabet[(alphabetGlobalIdx.toNat + j) % (alphabetSize chunksSize).toNat]? := by
  change (sliceLoop chunksSize chunksSize alphabetGlobalIdx []).1[j]? = _
  rw [sliceLoop_eq_letters chunksSize chunksSize alphabetGlobalIdx hlap]
  exact letters_getElem? (alphabetSize_pos chunksSize) (alphabetSize_le chunksSize) hj

/-- As long as the messages' bytes are counted by 64 bits: the constructor throws exactly for
counts no vector and sizes no string can have; otherwise every byte is the next letter of the
endless alphabet, and the iteration gives the messages in order, as often as it is started. -/
theorem generated_stream_closed_form {σ : Type} (chunksSize chunksTotalCount : UInt64)
    (hbytes : chunksTotalCount.toNat * chunksSize.toNat < 2 ^ 64) (s : σ) :
    (∀ len alphabetGlobalIdx : UInt64, len ≠ 0 →
      (alphabetGlobalIdx % alphabetSize chunksSize).toNat +
        (sliceSize (alphabetSize chunksSize) len alphabetGlobalIdx).toNat ≤ kAlphabet.length) ∧
    (2 ^ 63 ≤ chunksSize.toNat → chunksTotalCount ≠ 0 →
      (new chunksSize chunksTotalCount).run s = .error (.exception "std::length_error") s) ∧
    (vectorMaxSize sizeofString < chunksTotalCount.toNat →
      (new chunksSize chunksTotalCount).run s = .error (.exception "std::length_error") s) ∧
    (chunksTotalCount.toNat ≤ vectorMaxSize sizeofString →
      chunksSize.toNat < 2 ^ 63 ∨ chunksTotalCount = 0 →
      ∃ g, (new chunksSize chunksTotalCount).run s = .ok g s ∧
        g.msgs.length = chunksTotalCount.toNat ∧
        (∀ (i : Nat) (msg : StdString), g.msgs[i]? = some msg →
          msg.bytes.length = chunksSize.toNat ∧
          ∀ j < chunksSize.toNat, msg.bytes[j]? =
            kAlphabet[(i * chunksSize.toNat + j) %
              (if chunksSize.toNat % 36 = 0 then 35 else 36)]?) ∧
        ∀ itMsgs fuel : Nat, chunksTotalCount.toNat < fuel →
          enumerate fuel (toFirst { g with itMsgs }) =
            some (g.msgs, { g with itMsgs := g.msgs.length })) := by
  refine ⟨fun len alphabetGlobalIdx hlen => ?_, fun hbig hcount => new_throws hbig hcount s,
    fun hmany => new_rejects chunksSize hmany s, fun hfew hsmall => ?_⟩
  · obtain ⟨_, hinside, _⟩ :=
      sliceSize_bounds (alphabetSize_pos chunksSize) hlen alphabetGlobalIdx
    exact hinside.trans (alphabetSize_le chunksSize)
  · have henumerate : ∀ (g : SimpleRoundGenerator) (itMsgs fuel : Nat), g.msgs.length < fuel →
        enumerate fuel (toFirst { g with itMsgs }) =
          some (g.msgs, { g with itMsgs := g.msgs.length }) := by
      intro g itMsgs fuel hfuel
      exact enumerate_eq fuel (toFirst { g with itMsgs }) (Nat.zero_le _)
        (by change g.msgs.length < 0 + fuel; omega)
    rcases hsmall with hsmall | rfl
    · refine ⟨_, new_eq hsmall hfew s, by simp, fun i msg hi => ?_,
        fun itMsgs fuel hfuel => henumerate _ itMsgs fuel (by simpa using hfuel)⟩
      obtain ⟨hlt, rfl⟩ := messages_getElem? hsmall hi
      -- All bytes of the first `i + 1` messages are counted before the index wraps.
      have hend : (i + 1) * chunksSize.toNat ≤ chunksTotalCount.toNat * chunksSize.toNat :=
        Nat.mul_le_mul_right _ hlt
      rw [Nat.add_mul, Nat.one_mul] at hend
      have hstart : (startIndex chunksSize i).toNat = i * chunksSize.toNat := by
        rw [startIndex_toNat]
        exact Nat.mod_eq_of_lt (by omega)
      have hsize := alphabetSize_cases chunksSize
      refine ⟨sliceLoop_message_length chunksSize _, fun j hj => ?_⟩
      rw [message_getElem? hsmall (by omega) hj, hstart, alphabetSize_toNat]
    · exact ⟨⟨[], 0⟩, rfl, rfl, fun i msg (hi : ([] : List StdString)[i]? = some msg) => by simp at hi,
        fun itMsgs fuel hfuel => henumerate ⟨[], 0⟩ itMsgs fuel hfuel⟩

/-- The eighth message of five letters runs over the alphabet's end. -/
theorem generated_stream_closed_form_sample :
    ∃ g msg, (new 5 8).run () = .ok g () ∧ g.msgs[7]? = some msg ∧ msg.bytes[1]? = some 97 := by
  have hbytes : (8 : UInt64).toNat * (5 : UInt64).toNat < 2 ^ 64 := by decide
  obtain ⟨g, hnew, hlength, hmsgs, _⟩ :=
    (generated_stream_closed_form 5 8 hbytes ()).2.2.2 (by decide) (Or.inl (by decide))
  have hget := List.getElem?_eq_getElem (show 7 < g.msgs.length by rw [hlength]; decide)
  exact ⟨g, _, hnew, hget, (hmsgs 7 _ hget).2 1 (by decide)⟩

/-- One message of `2 ^ 63` bytes: the bytes can be counted, but no string can hold them. -/
theorem oversized_message_throws :
    (1 : UInt64).toNat * (9223372036854775808 : UInt64).toNat < 2 ^ 64 ∧
      ∀ g s, (new 9223372036854775808 1).run () ≠ .ok g s := by
  refine ⟨by decide, fun g s heq => ?_⟩
  rw [new_throws (by decide) (by decide) ()] at heq
  cases heq

theorem twoLetters_new : (new 1 2).run () = .ok twoLetters () := by
  have hsmall : (1 : UInt64).toNat < 2 ^ 63 := by decide
  have hsize : (alphabetSize 1).toNat = 36 := by decide
  have hletter : ∀ start : UInt64, start.toNat + 1 < 36 →
      (message hsmall start).bytes = letters 36 start.toNat 1 := by
    intro start hstart
    apply sliceLoop_eq_letters 1 1 start
    rw [hsize]
    change start.toNat + 1 + 16 ≤ _
    omega
  have hmessages : (List.range (2 : UInt64).toNat).map
      (fun i => message hsmall (startIndex 1 i)) = twoLetters.msgs := by
    change [_, _] = [_, _]
    congr 1
    · exact StdString.ext (hletter _ (by decide))
    · congr 1
      exact StdString.ext (hletter _ (by decide))
  rw [new_eq hsmall (by decide) (), hmessages]
  rfl

/-! Neighbouring messages. -/

section Neighbours
variable {chunksSize : UInt64} (h : chunksSize.toNat < 2 ^ 63)
include h

/-- Messages within their laps are equal when they start at the same letter. -/
theorem message_congr {start start' : UInt64}
    (hlap : start.toNat + chunksSize.toNat + 16 ≤ 2 ^ 64 + (alphabetSize chunksSize).toNat)
    (hlap' : start'.toNat + chunksSize.toNat + 16 ≤ 2 ^ 64 + (alphabetSize chunksSize).toNat)
    (hmod : start.toNat % (alphabetSize chunksSize).toNat =
      start'.toNat % (alphabetSize chunksSize).toNat) : message h start = message h start' := by
  apply StdString.ext
  apply List.ext_getElem?
  intro j
  rcases Nat.lt_or_ge j chunksSize.toNat with hj | hj
  · rw [message_getElem? h hlap hj, message_getElem? h hlap' hj, Nat.add_mod, hmod,
      ← Nat.add_mod]
  · have hlength : ∀ start : UInt64, (message h start).bytes.length = chunksSize.toNat :=
      sliceLoop_message_length chunksSize
    rw [List.getElem?_eq_none (by rw [hlength]; exact hj),
      List.getElem?_eq_none (by rw [hlength]; exact hj)]

theorem message_ne_of_mod (hpos : chunksSize ≠ 0) {start start' : UInt64}
    (hmod : start.toNat % (alphabetSize chunksSize).toNat ≠
      start'.toNat % (alphabetSize chunksSize).toNat) : message h start ≠ message h start' := by
  intro heq
  have hheads := congrArg (fun msg : StdString => msg.bytes[0]?) heq
  change (sliceLoop chunksSize chunksSize start []).1[0]? =
    (sliceLoop chunksSize chunksSize start' []).1[0]? at hheads
  rw [sliceLoop_head chunksSize hpos, sliceLoop_head chunksSize hpos] at hheads
  have hlt := Nat.mod_lt start.toNat (alphabetSize_pos chunksSize)
  exact hmod (kAlphabet_inj (hlt.trans_le (alphabetSize_le chunksSize)) hheads)

/-- A message that reaches past the lap in which the index wraps has a break in it, which
the next message does not have. -/
theorem message_ne_of_break {start next : UInt64}
    (hwrap : start.toNat + chunksSize.toNat = 2 ^ 64 + next.toNat)
    (hbreak : (alphabetSize chunksSize).toNat < next.toNat + 16)
    (hmod : chunksSize.toNat % (alphabetSize chunksSize).toNat = 16) :
    message h start ≠ message h next := by
  intro heq
  have hsize := alphabetSize_cases chunksSize
  have hstart := start.toNat_lt
  obtain ⟨p, hp⟩ : ∃ p, start.toNat + p + 16 = 2 ^ 64 + (alphabetSize chunksSize).toNat :=
    ⟨2 ^ 64 + (alphabetSize chunksSize).toNat - 16 - start.toNat, by omega⟩
  have hin : p < chunksSize.toNat := by omega
  have hbytes := congrArg (fun msg : StdString => msg.bytes[p]?) heq
  change (sliceLoop chunksSize chunksSize start []).1[p]? = (message h next).bytes[p]? at hbytes
  rw [sliceLoop_wrap chunksSize chunksSize start hin hp,
    message_getElem? h (by omega) hin] at hbytes
  have hletters := kAlphabet_inj (by omega) hbytes
  rcases hsize with hs | hs
  · rw [hs] at hletters hmod hp
    omega
  · rw [hs] at hletters hmod hp
    omega

end Neighbours

/-- Message `k` starts soon after the running index has wrapped, at the letter at which the
message before it starts. -/
def RepeatsAtWrap (chunksSize : UInt64) (k : Nat) : Prop :=
  chunksSize.toNat % (alphabetSize chunksSize).toNat = 16 ∧
    k * chunksSize.toNat % 2 ^ 64 < chunksSize.toNat ∧
    k * chunksSize.toNat % 2 ^ 64 + 16 ≤ (alphabetSize chunksSize).toNat

theorem mod_alphabetSize_eq_zero_iff (chunksSize : UInt64) :
    chunksSize.toNat % (alphabetSize chunksSize).toNat = 0 ↔ chunksSize.toNat % 1260 = 0 := by
  rw [alphabetSize_toNat]
  split <;> omega

theorem startIndex_succ (chunksSize : UInt64) (i : Nat) :
    (startIndex chunksSize (i + 1)).toNat =
      ((startIndex chunksSize i).toNat + chunksSize.toNat) % 2 ^ 64 := by
  rw [startIndex_toNat, startIndex_toNat, Nat.add_mul, Nat.one_mul, Nat.mod_add_mod]

section Pairs
variable {chunksSize : UInt64} (h : chunksSize.toNat < 2 ^ 63)
include h

/-- A size that both alphabets divide gives the first two messages the same letters. -/
theorem first_messages_repeat (hmod : chunksSize.toNat % 1260 = 0) :
    message h (startIndex chunksSize 0) = message h (startIndex chunksSize 1) := by
  have hsize := alphabetSize_cases chunksSize
  have hzero := (mod_alphabetSize_eq_zero_iff chunksSize).mpr hmod
  have hstart : (startIndex chunksSize 0).toNat = 0 := by rw [startIndex_toNat, Nat.zero_mul]; rfl
  have hnext : (startIndex chunksSize 1).toNat = chunksSize.toNat := by
    rw [startIndex_toNat, Nat.one_mul, Nat.mod_eq_of_lt (by omega)]
  apply message_congr h
  · omega
  · omega
  · rw [hstart, hnext, hzero, Nat.zero_mod]

theorem messages_repeat_at_wrap {i : Nat} (hrepeats : RepeatsAtWrap chunksSize (i + 1)) :
    message h (startIndex chunksSize i) = message h (startIndex chunksSize (i + 1)) := by
  obtain ⟨hmod, hlow, hlap⟩ := hrepeats
  rw [← startIndex_toNat] at hlow hlap
  have hsucc := startIndex_succ chunksSize i
  have hstart := (startIndex chunksSize i).toNat_lt
  have hwrap : (startIndex chunksSize i).toNat + chunksSize.toNat =
      2 ^ 64 + (startIndex chunksSize (i + 1)).toNat := by omega
  apply message_congr h
  · omega
  · omega
  · rcases alphabetSize_cases chunksSize with hs | hs
    · rw [hs] at hmod ⊢
      omega
    · rw [hs] at hmod ⊢
      omega

theorem messages_differ (hpos : chunksSize ≠ 0) (hmod : chunksSize.toNat % 1260 ≠ 0) {i : Nat}
    (hrepeats : ¬ RepeatsAtWrap chunksSize (i + 1)) :
    message h (startIndex chunksSize i) ≠ message h (startIndex chunksSize (i + 1)) := by
  have hsucc := startIndex_succ chunksSize i
  have hstart := (startIndex chunksSize i).toNat_lt
  have hnotzero := mt (mod_alphabetSize_eq_zero_iff chunksSize).mp hmod
  unfold RepeatsAtWrap at hrepeats
  rw [← startIndex_toNat] at hrepeats
  rcases Nat.lt_or_ge ((startIndex chunksSize i).toNat + chunksSize.toNat) (2 ^ 64)
    with hstays | hwraps
  · -- The next message starts at another letter.
    apply message_ne_of_mod h hpos
    rw [hsucc, Nat.mod_eq_of_lt hstays]
    rcases alphabetSize_cases chunksSize with hs | hs
    · rw [hs] at hnotzero ⊢
      omega
    · rw [hs] at hnotzero ⊢
      omega
  · have hwrap : (startIndex chunksSize i).toNat + chunksSize.toNat =
        2 ^ 64 + (startIndex chunksSize (i + 1)).toNat := by omega
    by_cases hsame : chunksSize.toNat % (alphabetSize chunksSize).toNat = 16
    · exact message_ne_of_break h hwrap (by omega) hsame
    · apply message_ne_of_mod h hpos
      rcases alphabetSize_cases chunksSize with hs | hs
      · rw [hs] at hsame ⊢
        omega
      · rw [hs] at hsame ⊢
        omega

end Pairs

/-- Any two neighbouring messages of the constructed generator are different strings. -/
def NeighboursDiffer {σ : Type} (chunksSize chunksTotalCount : UInt64) (s : σ) : Prop :=
  ∀ g s', (new chunksSize chunksTotalCount).run s = .ok g s' →
    ∀ (i : Nat) (msg msg' : StdString), g.msgs[i]? = some msg → g.msgs[i + 1]? = some msg' →
      msg ≠ msg'

/-- Neighbouring messages differ exactly when the constructor throws, there is at most one
message, or the size is no multiple of 1260 and no message repeats the one before it where
the 64-bit running index wraps. -/
theorem neighbours_differ_iff {σ : Type} (chunksSize chunksTotalCount : UInt64)
    (hpos : chunksSize ≠ 0) (s : σ) :
    NeighboursDiffer chunksSize chunksTotalCount s ↔
    vectorMaxSize sizeofString < chunksTotalCount.toNat ∨ 2 ^ 63 ≤ chunksSize.toNat ∨
      chunksTotalCount.toNat ≤ 1 ∨
      (chunksSize.toNat % 1260 ≠ 0 ∧
        ∀ i, i + 1 < chunksTotalCount.toNat → ¬ RepeatsAtWrap chunksSize (i + 1)) := by
  rcases Nat.lt_or_ge (vectorMaxSize sizeofString) chunksTotalCount.toNat with hmany | hfew
  · refine ⟨fun _ => Or.inl hmany, fun _ g s' hnew => ?_⟩
    rw [new_rejects chunksSize hmany s] at hnew
    cases hnew
  rcases Nat.lt_or_ge chunksSize.toNat (2 ^ 63) with hsmall | hbig
  · constructor
    · intro hdiffer
      have hpair : ∀ i, i + 1 < chunksTotalCount.toNat →
          message hsmall (startIndex chunksSize i) ≠
            message hsmall (startIndex chunksSize (i + 1)) := by
        intro i hi
        refine hdiffer _ _ (new_eq hsmall hfew s) i _ _ ?_ ?_
        · simp [Nat.lt_of_succ_lt hi]
        · simp [hi]
      rcases Nat.lt_or_ge 1 chunksTotalCount.toNat with htwo | hone
      · exact Or.inr (Or.inr (Or.inr ⟨fun hmod => hpair 0 htwo (first_messages_repeat hsmall hmod),
          fun i hi hrepeats => hpair i hi (messages_repeat_at_wrap hsmall hrepeats)⟩))
      · exact Or.inr (Or.inr (Or.inl hone))
    · intro hcondition g s' hnew i msg msg' hi hi'
      rw [new_eq hsmall hfew s] at hnew
      cases hnew
      obtain ⟨_, rfl⟩ := messages_getElem? hsmall hi
      obtain ⟨hlt, rfl⟩ := messages_getElem? hsmall hi'
      rcases hcondition with hmany | hbig | hone | ⟨hmod, hrepeats⟩
      · omega
      · omega
      · omega
      · exact messages_differ hsmall hpos hmod (hrepeats i hlt)
  · refine ⟨fun _ => Or.inr (Or.inl hbig), fun _ g s' hnew i msg msg' hi => ?_⟩
    by_cases hcount : chunksTotalCount = 0
    · subst hcount
      cases hnew
      simp at hi
    · rw [new_throws hbig hcount s] at hnew
      cases hnew

theorem neighbours_differ_iff_sample : NeighboursDiffer 5 1000 () := by
  apply (neighbours_differ_iff 5 1000 (by decide) ()).mpr
  refine Or.inr (Or.inr (Or.inr ⟨by decide, fun i _ hrepeats => ?_⟩))
  exact absurd hrepeats.1 (by decide)

/-- Two messages of 1260 letters are the same string. -/
theorem multiples_of_1260_repeat : ¬ NeighboursDiffer 1260 2 () := by
  intro hdiffer
  have hsmall : (1260 : UInt64).toNat < 2 ^ 63 := by decide
  exact hdiffer _ _ (new_eq hsmall (by decide) ()) 0 _ _ rfl rfl
    (first_messages_repeat hsmall (by decide))

end SimpleRoundGenerator
end IpcChecker
