import IpcChecker.Packers

/-!
# The message generator

`SimpleRoundGenerator` runs through its alphabet without end and cuts the stream
into messages of one size.
-/

namespace IpcChecker
set_option autoImplicit false

/-- The characters `a` to `z`, `1` to `9` and `0`. -/
def kAlphabet : List UInt8 :=
  "abcdefghijklmnopqrstuvwxyz1234567890".toList.map fun c => UInt8.ofNat c.toNat

def kAlphabetSize : UInt64 := 36

/-- `itMsgs` is the iterator's position. -/
structure SimpleRoundGenerator where
  msgs : List StdString
  itMsgs : Nat

namespace SimpleRoundGenerator

def alphabetSize (chunksSize : UInt64) : UInt64 :=
  if chunksSize % kAlphabetSize ≠ 0 then kAlphabetSize else kAlphabetSize - 1

/-- How much one round of the inner loop appends. -/
def sliceSize (alphabetSize len alphabetGlobalIdx : UInt64) : UInt64 :=
  min (alphabetSize - alphabetGlobalIdx % alphabetSize) len

theorem alphabetSize_cases (chunksSize : UInt64) :
    (alphabetSize chunksSize).toNat = 36 ∨ (alphabetSize chunksSize).toNat = 35 := by
  unfold alphabetSize
  split
  · exact Or.inl rfl
  · exact Or.inr rfl

theorem alphabetSize_pos (chunksSize : UInt64) : 0 < (alphabetSize chunksSize).toNat := by
  rcases alphabetSize_cases chunksSize with h | h <;> omega

theorem alphabetSize_le (chunksSize : UInt64) : (alphabetSize chunksSize).toNat ≤ 36 := by
  rcases alphabetSize_cases chunksSize with h | h <;> omega

theorem sliceSize_toNat {size : UInt64} (hsize : 0 < size.toNat) (len alphabetGlobalIdx : UInt64) :
    (sliceSize size len alphabetGlobalIdx).toNat =
      min (size.toNat - alphabetGlobalIdx.toNat % size.toNat) len.toNat := by
  have hidx : (alphabetGlobalIdx % size).toNat < size.toNat := by
    rw [UInt64.toNat_mod]
    exact Nat.mod_lt _ hsize
  have hle : alphabetGlobalIdx % size ≤ size := UInt64.le_iff_toNat_le.mpr (Nat.le_of_lt hidx)
  unfold sliceSize
  rw [UInt64.toNat_min, UInt64.toNat_sub_of_le _ _ hle, UInt64.toNat_mod]

/-- The slice is not empty, and ends inside the alphabet and inside the message. -/
theorem sliceSize_bounds {size : UInt64} (hsize : 0 < size.toNat) {len : UInt64} (hlen : len ≠ 0)
    (alphabetGlobalIdx : UInt64) :
    0 < (sliceSize size len alphabetGlobalIdx).toNat ∧
      (alphabetGlobalIdx % size).toNat + (sliceSize size len alphabetGlobalIdx).toNat ≤
        size.toNat ∧
      (sliceSize size len alphabetGlobalIdx).toNat ≤ len.toNat := by
  have hpos : 0 < len.toNat := by
    rcases Nat.eq_zero_or_pos len.toNat with hzero | hpos
    · exact absurd (UInt64.toNat_inj.mp hzero) hlen
    · exact hpos
  have hidx := Nat.mod_lt alphabetGlobalIdx.toNat hsize
  rw [sliceSize_toNat hsize, UInt64.toNat_mod]
  omega

theorem sub_sliceSize_toNat {size : UInt64} (hsize : 0 < size.toNat) {len : UInt64}
    (hlen : len ≠ 0) (alphabetGlobalIdx : UInt64) :
    (len - sliceSize size len alphabetGlobalIdx).toNat =
      len.toNat - (sliceSize size len alphabetGlobalIdx).toNat :=
  UInt64.toNat_sub_of_le _ _
    (UInt64.le_iff_toNat_le.mpr (sliceSize_bounds hsize hlen alphabetGlobalIdx).2.2)

/-- The inner loop: the finished message and the index to go on with. -/
def sliceLoop (chunksSize len alphabetGlobalIdx : UInt64) (msg : List UInt8) :
    List UInt8 × UInt64 :=
  if _hlen : len = 0 then (msg, alphabetGlobalIdx)
  else
    let alphabetIdx := alphabetGlobalIdx % alphabetSize chunksSize
    let count := sliceSize (alphabetSize chunksSize) len alphabetGlobalIdx
    sliceLoop chunksSize (len - count) (alphabetGlobalIdx + count)
      (msg ++ (kAlphabet.drop alphabetIdx.toNat).take count.toNat)
termination_by len.toNat
decreasing_by
  have hsize := alphabetSize_pos chunksSize
  have hbounds := sliceSize_bounds hsize _hlen alphabetGlobalIdx
  rw [sub_sliceSize_toNat hsize _hlen]
  omega

theorem kAlphabet_length : kAlphabet.length = 36 := rfl

theorem slice_length {idx count : Nat} (h : idx + count ≤ 36) :
    ((kAlphabet.drop idx).take count).length = count := by
  rw [List.length_take, List.length_drop, kAlphabet_length]
  omega

theorem sliceLoop_length (chunksSize len alphabetGlobalIdx : UInt64) (msg : List UInt8) :
    (sliceLoop chunksSize len alphabetGlobalIdx msg).1.length = msg.length + len.toNat := by
  induction len, alphabetGlobalIdx, msg using sliceLoop.induct chunksSize with
  | case1 alphabetGlobalIdx msg =>
    rw [sliceLoop, dif_pos rfl]
    rfl
  | case2 len alphabetGlobalIdx msg hlen alphabetIdx count ih =>
    have hsize := alphabetSize_pos chunksSize
    have hle := alphabetSize_le chunksSize
    obtain ⟨_, hinside, hlast⟩ := sliceSize_bounds hsize hlen alphabetGlobalIdx
    rw [sliceLoop, dif_neg hlen]
    refine ih.trans ?_
    rw [List.length_append, slice_length (hinside.trans hle), sub_sliceSize_toNat hsize hlen]
    omega

theorem sliceLoop_message_length (chunksSize alphabetGlobalIdx : UInt64) :
    (sliceLoop chunksSize chunksSize alphabetGlobalIdx []).1.length = chunksSize.toNat := by
  rw [sliceLoop_length, List.length_nil, Nat.zero_add]

/-- The message made by one round of the outer loop. -/
def message {chunksSize : UInt64} (h : chunksSize.toNat < 2 ^ 63) (alphabetGlobalIdx : UInt64) :
    StdString where
  bytes := (sliceLoop chunksSize chunksSize alphabetGlobalIdx []).1
  length_lt := by rw [sliceLoop_message_length]; exact h

/-- The outer loop; `reserve` throws for sizes no string can have. -/
def messages {σ : Type} (chunksSize : UInt64) : Nat → UInt64 → Action σ (List StdString)
  | 0, _ => return []
  | i + 1, alphabetGlobalIdx =>
    if h : chunksSize.toNat < 2 ^ 63 then do
      let msgs ← messages chunksSize i (sliceLoop chunksSize chunksSize alphabetGlobalIdx []).2
      return message h alphabetGlobalIdx :: msgs
    else throw (.exception "std::length_error")

/-- `sizeof(std::string)`. -/
def sizeofString : Nat := 32

/-- The constructor. -/
def new {σ : Type} (chunksSize chunksTotalCount : UInt64) : Action σ SimpleRoundGenerator := do
  vectorReserve sizeofString chunksTotalCount
  return { msgs := ← messages chunksSize chunksTotalCount.toNat 0, itMsgs := 0 }

def toFirst (g : SimpleRoundGenerator) : SimpleRoundGenerator := { g with itMsgs := 0 }

def hasNext (g : SimpleRoundGenerator) : Bool := g.itMsgs != g.msgs.length

/-- The message at the iterator, when it is not at the end, and the iterator moved on. -/
def next (g : SimpleRoundGenerator) : Option (StdString × SimpleRoundGenerator) :=
  g.msgs[g.itMsgs]?.map fun msg => (msg, { g with itMsgs := g.itMsgs + 1 })

theorem messages_run {σ : Type} {chunksSize : UInt64} (h : chunksSize.toNat < 2 ^ 63) (i : Nat) :
    ∀ (alphabetGlobalIdx : UInt64) (s : σ), ∃ msgs,
      (messages chunksSize i alphabetGlobalIdx).run s = .ok msgs s ∧ msgs.length = i ∧
        ∀ msg ∈ msgs, msg.bytes.length = chunksSize.toNat := by
  induction i with
  | zero =>
    intro alphabetGlobalIdx s
    exact ⟨[], rfl, rfl, fun _ hmem => absurd hmem List.not_mem_nil⟩
  | succ i ih =>
    intro alphabetGlobalIdx s
    obtain ⟨msgs, hrun, hlength, hsizes⟩ :=
      ih (sliceLoop chunksSize chunksSize alphabetGlobalIdx []).2 s
    refine ⟨message h alphabetGlobalIdx :: msgs, ?_, congrArg (· + 1) hlength, ?_⟩
    · rw [messages, dif_pos h, run_bind_ok hrun]
      rfl
    · intro msg hmem
      rcases List.mem_cons.mp hmem with rfl | hrest
      · exact sliceLoop_message_length chunksSize alphabetGlobalIdx
      · exact hsizes msg hrest

theorem new_run {σ : Type} {chunksSize chunksTotalCount : UInt64} (h : chunksSize.toNat < 2 ^ 63)
    (hcount : chunksTotalCount.toNat ≤ vectorMaxSize sizeofString) (s : σ) :
    ∃ g, (new chunksSize chunksTotalCount).run s = .ok g s ∧
      g.msgs.length = chunksTotalCount.toNat ∧
      ∀ msg ∈ g.msgs, msg.bytes.length = chunksSize.toNat := by
  obtain ⟨msgs, hrun, hlength, hsizes⟩ := messages_run h chunksTotalCount.toNat 0 s
  refine ⟨{ msgs, itMsgs := 0 }, ?_, hlength, hsizes⟩
  unfold new
  rw [vectorReserve_fits hcount, pure_bind, run_bind_ok hrun]
  rfl

/-- More messages than a vector can have throw at once, whatever their size. -/
theorem new_rejects {σ : Type} (chunksSize : UInt64) {chunksTotalCount : UInt64}
    (hcount : vectorMaxSize sizeofString < chunksTotalCount.toNat) (s : σ) :
    (new chunksSize chunksTotalCount).run s = .error (.exception "std::length_error") s := by
  unfold new
  rw [vectorReserve_throws hcount]
  exact run_throw_bind _ _ s

theorem fits_of_new {σ : Type} {chunksSize chunksTotalCount : UInt64} {g : SimpleRoundGenerator}
    {s s' : σ} (h : (new chunksSize chunksTotalCount).run s = .ok g s') :
    chunksTotalCount.toNat ≤ vectorMaxSize sizeofString := by
  by_contra hmany
  rw [new_rejects chunksSize (Nat.lt_of_not_le hmany)] at h
  cases h

/-- `HasNext` fails exactly where there is no next message. -/
theorem next_eq_none_iff {g : SimpleRoundGenerator} (h : g.itMsgs ≤ g.msgs.length) :
    g.next = none ↔ g.hasNext = false := by
  unfold next hasNext
  rw [Option.map_eq_none_iff, List.getElem?_eq_none_iff, bne_eq_false_iff_eq]
  omega

/-- Two messages of one character. -/
def twoLetters : SimpleRoundGenerator := ⟨[⟨[97], by decide⟩, ⟨[98], by decide⟩], 0⟩

end SimpleRoundGenerator
end IpcChecker
