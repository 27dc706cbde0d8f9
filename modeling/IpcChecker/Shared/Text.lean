import Mathlib.Data.List.Induction
import Mathlib.Data.List.TakeWhile
import Mathlib.Data.Nat.Digits.Defs

/-!
# Text in bytes: the first occurrence of a word, decimal numerals

A numeral is a nonempty word of decimal digits, after a minus sign where the type
has one. `fromChars` is `std::from_chars` for base ten: it takes the longest
numeral at the front of its input and gives back what it left unread. `stoi` is
`std::stoi`, which also takes blanks and a sign of either kind before the numeral.
-/

namespace Shared
set_option autoImplicit false

namespace Text
variable {word : List UInt8}

/-- The bytes of a text all of whose characters are ASCII. -/
def bytes (s : String) : List UInt8 := s.toList.map fun c => UInt8.ofNat c.toNat

/-- The text of the bytes, one character a byte. -/
def ofBytes (bs : List UInt8) : String := String.ofList (bs.map fun b => Char.ofNat b.toNat)

/-- Where the word first occurs, as `std::string_view::find` tells it. -/
def find (word : List UInt8) : List UInt8 → Option Nat
  | [] => if word = [] then some 0 else none
  | b :: bs => if word.isPrefixOf (b :: bs) then some 0 else (find word bs).map (· + 1)

theorem find_split : ∀ {bs : List UInt8} {n : Nat}, find word bs = some n →
    bs = bs.take n ++ word ++ bs.drop (n + word.length)
  | [], n, h => by
    unfold find at h
    split at h
    · rename_i hword
      rw [hword]
      simp
    · cases h
  | b :: bs, n, h => by
    unfold find at h
    split at h
    · rename_i hfront
      have hword := List.isPrefixOf_iff_prefix.mp hfront
      obtain ⟨rest, hrest⟩ := hword
      cases h
      rw [← hrest]
      simp
    · obtain ⟨m, hm, rfl⟩ := Option.map_eq_some_iff.mp h
      have hsplit := find_split hm
      rw [Nat.add_right_comm, List.take_succ_cons, List.drop_succ_cons]
      exact congrArg (b :: ·) hsplit

theorem not_isPrefixOf_of_ne {first b : UInt8} (h : first ≠ b) (last bs : List UInt8) :
    ¬ (first :: last).isPrefixOf (b :: bs) = true := by
  intro hfront
  have hword := List.isPrefixOf_iff_prefix.mp hfront
  exact h (List.cons_prefix_cons.mp hword).1

/-- A front part that has not the word's first byte hides no earlier occurrence. -/
theorem find_append (first : UInt8) (last bs : List UInt8) : ∀ {front : List UInt8},
    first ∉ front → find (first :: last) (front ++ (first :: last) ++ bs) = some front.length
  | [], _ => by
    have hfront : (first :: last).isPrefixOf (first :: last ++ bs) = true :=
      List.isPrefixOf_iff_prefix.mpr (List.prefix_append (first :: last) bs)
    exact if_pos hfront
  | b :: front, h => by
    have hb : first ≠ b := fun heq => h (heq ▸ List.mem_cons_self)
    have hrest : first ∉ front := fun hmem => h (List.mem_cons_of_mem b hmem)
    rw [List.cons_append, List.cons_append]
    unfold find
    rw [if_neg (not_isPrefixOf_of_ne hb _ _), find_append first last bs hrest]
    rfl

theorem find_eq_none {first : UInt8} {last : List UInt8} : ∀ {bs : List UInt8},
    first ∉ bs → find (first :: last) bs = none
  | [], _ => rfl
  | b :: bs, h => by
    have hb : first ≠ b := fun heq => h (heq ▸ List.mem_cons_self)
    have hrest : first ∉ bs := fun hmem => h (List.mem_cons_of_mem b hmem)
    unfold find
    rw [if_neg (not_isPrefixOf_of_ne hb _ _), find_eq_none hrest]
    rfl

end Text

/-- An integer type of the language: whether it has a sign, and its range. -/
structure IntegerType where
  signed : Bool
  min : Int
  max : Int

def IntegerType.Holds (type : IntegerType) (n : Int) : Prop := type.min ≤ n ∧ n ≤ type.max

instance (type : IntegerType) (n : Int) : Decidable (type.Holds n) :=
  inferInstanceAs (Decidable (_ ∧ _))

abbrev IntegerType.Value (type : IntegerType) : Type := { n : Int // type.Holds n }

namespace Decimal

def isDigit (b : UInt8) : Bool := 48 ≤ b && b ≤ 57

def digit (b : UInt8) : Nat := b.toNat - 48

/-- The word read from the left, as a scanner does. -/
def value (bs : List UInt8) : Nat := bs.foldl (fun n b => 10 * n + digit b) 0

/-- The word is a numeral for the natural number `n`. -/
structure Denotes (bs : List UInt8) (n : Nat) : Prop where
  nonempty : bs ≠ []
  digits : ∀ b ∈ bs, isDigit b
  ofDigits : Nat.ofDigits 10 (bs.map digit).reverse = n

theorem value_append_singleton (bs : List UInt8) (b : UInt8) :
    value (bs ++ [b]) = 10 * value bs + digit b := by
  unfold value
  rw [List.foldl_append]
  rfl

theorem value_eq_ofDigits (bs : List UInt8) :
    value bs = Nat.ofDigits 10 (bs.map digit).reverse := by
  induction bs using List.reverseRecOn with
  | nil => rfl
  | append_singleton bs b ih =>
    rw [value_append_singleton, ih, List.map_append, List.reverse_append, List.map_singleton,
      List.reverse_singleton, List.singleton_append, Nat.ofDigits_cons]
    exact Nat.add_comm _ _

theorem denotes_iff {bs : List UInt8} {n : Nat} :
    Denotes bs n ↔ bs ≠ [] ∧ (∀ b ∈ bs, isDigit b) ∧ value bs = n := by
  rw [value_eq_ofDigits]
  constructor
  · rintro ⟨hnonempty, hdigits, hvalue⟩
    exact ⟨hnonempty, hdigits, hvalue⟩
  · rintro ⟨hnonempty, hdigits, hvalue⟩
    exact ⟨hnonempty, hdigits, hvalue⟩

/-- The digits of a number, the most significant first. -/
def toChars (n : Nat) : List UInt8 :=
  if n = 0 then [48] else (Nat.digits 10 n).reverse.map fun d => UInt8.ofNat (48 + d)

theorem digit_ofNat {d : Nat} (h : d < 10) :
    isDigit (UInt8.ofNat (48 + d)) = true ∧ digit (UInt8.ofNat (48 + d)) = d := by
  have hnat : (UInt8.ofNat (48 + d)).toNat = 48 + d := UInt8.toNat_ofNat_of_lt' (by
    change 48 + d < 2 ^ 8
    omega)
  unfold isDigit digit
  rw [hnat]
  simp only [Bool.and_eq_true, decide_eq_true_eq, UInt8.le_iff_toNat_le, hnat]
  exact ⟨⟨by change 48 ≤ 48 + d; omega, by change 48 + d ≤ 57; omega⟩, by omega⟩

theorem denotes_toChars (n : Nat) : Denotes (toChars n) n := by
  unfold toChars
  by_cases hzero : n = 0
  · rw [if_pos hzero, hzero]
    exact denotes_iff.mpr ⟨List.cons_ne_nil _ _, by simp [isDigit], rfl⟩
  · rw [if_neg hzero]
    have hlt : ∀ d ∈ Nat.digits 10 n, d < 10 := fun d hd => Nat.digits_lt_base (by omega) hd
    refine ⟨?_, ?_, ?_⟩
    · simpa using Nat.digits_ne_nil_iff_ne_zero.mpr hzero
    · intro b hb
      obtain ⟨d, hd, rfl⟩ := List.mem_map.mp hb
      exact (digit_ofNat (hlt d (List.mem_reverse.mp hd))).1
    · have hdigits : (Nat.digits 10 n).map (digit ∘ fun d => UInt8.ofNat (48 + d)) =
          Nat.digits 10 n := by
        apply (List.map_congr_left fun d hd => (digit_ofNat (hlt d hd)).2).trans
        exact List.map_id _
      rw [List.map_map, ← List.map_reverse, List.reverse_reverse, hdigits, Nat.ofDigits_digits]

theorem not_isDigit_minus : isDigit 45 = false := rfl

/-- The whole string is a numeral of the type, for the value `v`. -/
inductive Numeral (type : IntegerType) : List UInt8 → type.Value → Prop where
  | plain {bs : List UInt8} {n : Nat} {v : type.Value} (h : Denotes bs n) (hv : v.val = n) :
    Numeral type bs v
  | minus {bs : List UInt8} {n : Nat} {v : type.Value} (hsigned : type.signed = true)
    (h : Denotes bs n) (hv : v.val = -n) : Numeral type (45 :: bs) v

/-- `std::to_string` of an integer. -/
def toString (n : Int) : List UInt8 := if n < 0 then 45 :: toChars n.natAbs else toChars n.natAbs

/-- What is printed for a value of a type is a numeral of that type. -/
theorem numeral_toString {type : IntegerType} (v : type.Value)
    (hsigned : v.val < 0 → type.signed = true) : Numeral type (toString v.val) v := by
  unfold toString
  by_cases hneg : v.val < 0
  · rw [if_pos hneg]
    exact .minus (hsigned hneg) (denotes_toChars _) (by omega)
  · rw [if_neg hneg]
    exact .plain (denotes_toChars _) (by omega)

inductive Errc where
  | invalidArgument
  | resultOutOfRange
  deriving Repr, DecidableEq

/-- The sign at the front, if the type has one, and the rest. -/
def splitSign (type : IntegerType) : List UInt8 → Bool × List UInt8
  | 45 :: rest => if type.signed then (true, rest) else (false, 45 :: rest)
  | bs => (false, bs)

def signedValue (negative : Bool) (n : Nat) : Int := if negative then -(n : Int) else n

theorem splitSign_minus {type : IntegerType} (h : type.signed = true) (bs : List UInt8) :
    splitSign type (45 :: bs) = (true, bs) := if_pos h

theorem splitSign_cases (type : IntegerType) (bs : List UInt8) :
    splitSign type bs = (false, bs) ∨
      ∃ rest, type.signed = true ∧ bs = 45 :: rest ∧ splitSign type bs = (true, rest) := by
  unfold splitSign
  split
  · rename_i rest
    by_cases hsigned : type.signed = true
    · exact .inr ⟨rest, hsigned, rfl, if_pos hsigned⟩
    · exact .inl (if_neg hsigned)
  · exact .inl rfl

theorem splitSign_denotes (type : IntegerType) {bs : List UInt8} {n : Nat} (h : Denotes bs n) :
    splitSign type bs = (false, bs) := by
  rcases splitSign_cases type bs with hsplit | ⟨rest, _, rfl, _⟩
  · exact hsplit
  · have hminus := h.digits 45 List.mem_cons_self
    rw [not_isDigit_minus] at hminus
    cases hminus

/-- The digits at the front as one number, and the rest. -/
def readDigits (type : IntegerType) (negative : Bool) (bs : List UInt8) :
    Except Errc (type.Value × List UInt8) :=
  let digits := bs.takeWhile isDigit
  if digits = [] then .error .invalidArgument
  else if h : type.Holds (signedValue negative (value digits)) then
    .ok (⟨signedValue negative (value digits), h⟩, bs.dropWhile isDigit)
  else .error .resultOutOfRange

/-- The value that is stored and the unread rest, or the error. -/
def fromChars (type : IntegerType) (bs : List UInt8) : Except Errc (type.Value × List UInt8) :=
  readDigits type (splitSign type bs).1 (splitSign type bs).2

theorem readDigits_ok_iff {type : IntegerType} {negative : Bool} {bs rest : List UInt8}
    {v : type.Value} :
    readDigits type negative bs = .ok (v, rest) ↔
      bs.takeWhile isDigit ≠ [] ∧ v.val = signedValue negative (value (bs.takeWhile isDigit)) ∧
        bs.dropWhile isDigit = rest := by
  unfold readDigits
  simp only
  constructor
  · intro h
    split at h
    · cases h
    · rename_i hnonempty
      split at h
      · simp only [Except.ok.injEq, Prod.mk.injEq] at h
        exact ⟨hnonempty, h.1 ▸ rfl, h.2⟩
      · cases h
  · rintro ⟨hnonempty, hv, rfl⟩
    have hholds := v.property
    rw [hv] at hholds
    rw [if_neg hnonempty, dif_pos hholds]
    exact congrArg (fun w => Except.ok (w, _)) (Subtype.ext hv.symm)

section Whole
variable {type : IntegerType} {bs : List UInt8} {v : type.Value}

theorem readDigits_of_denotes {negative : Bool} {n : Nat} (h : Denotes bs n)
    (hv : v.val = signedValue negative n) : readDigits type negative bs = .ok (v, []) := by
  obtain ⟨hnonempty, hdigits, hvalue⟩ := denotes_iff.mp h
  have htake : bs.takeWhile isDigit = bs := List.takeWhile_eq_self_iff.mpr hdigits
  have hdrop : bs.dropWhile isDigit = [] := List.dropWhile_eq_nil_iff.mpr hdigits
  rw [readDigits_ok_iff, htake, hvalue]
  exact ⟨hnonempty, hv, hdrop⟩

theorem denotes_of_readDigits {negative : Bool} (h : readDigits type negative bs = .ok (v, [])) :
    Denotes bs (value bs) ∧ v.val = signedValue negative (value bs) := by
  obtain ⟨hnonempty, hv, hdrop⟩ := readDigits_ok_iff.mp h
  have hdigits : ∀ b ∈ bs, isDigit b := List.dropWhile_eq_nil_iff.mp hdrop
  rw [List.takeWhile_eq_self_iff.mpr hdigits] at hnonempty hv
  exact ⟨denotes_iff.mpr ⟨hnonempty, hdigits, rfl⟩, hv⟩

/-- A string is read to its end exactly when it is a numeral, and then as its value. -/
theorem fromChars_whole_iff : fromChars type bs = .ok (v, []) ↔ Numeral type bs v := by
  unfold fromChars
  constructor
  · intro h
    rcases splitSign_cases type bs with hsplit | ⟨rest, hsigned, rfl, hsplit⟩
    · rw [hsplit] at h
      obtain ⟨hdenotes, hv⟩ := denotes_of_readDigits h
      exact .plain hdenotes hv
    · rw [hsplit] at h
      obtain ⟨hdenotes, hv⟩ := denotes_of_readDigits h
      exact .minus hsigned hdenotes hv
  · intro h
    cases h with
    | plain h hv =>
      rw [splitSign_denotes type h]
      exact readDigits_of_denotes h hv
    | minus hsigned h hv =>
      rw [splitSign_minus hsigned]
      exact readDigits_of_denotes h hv

end Whole

/-- What `isspace` accepts in the C locale. -/
def isSpace (b : UInt8) : Bool := b = 32 || (9 ≤ b && b ≤ 13)

/-- A sign of either kind at the front, and the rest. -/
def splitAnySign : List UInt8 → Bool × List UInt8
  | 43 :: rest => (false, rest)
  | 45 :: rest => (true, rest)
  | bs => (false, bs)

/-- The number at the front, or the error; what follows the number is ignored. -/
def stoi (type : IntegerType) (bs : List UInt8) : Except Errc type.Value :=
  let rest := splitAnySign (bs.dropWhile isSpace)
  (readDigits type rest.1 rest.2).map Prod.fst

/-- An optional sign, and whether it is a minus. -/
inductive Sign : List UInt8 → Bool → Prop where
  | none : Sign [] false
  | plus : Sign [43] false
  | minus : Sign [45] true

/-- The string begins with blanks, an optional sign and a numeral, and so with this number. -/
inductive Leading : List UInt8 → Int → Prop where
  | intro {blanks sign digits tail : List UInt8} {negative : Bool} {n : Nat}
    (hblanks : ∀ b ∈ blanks, isSpace b) (hsign : Sign sign negative) (hdigits : Denotes digits n)
    (htail : ∀ b ∈ tail.head?, isDigit b = false) :
    Leading (blanks ++ (sign ++ (digits ++ tail))) (signedValue negative n)

section Leading
variable {type : IntegerType}

theorem splitAnySign_sign (bs : List UInt8) :
    ∃ sign, Sign sign (splitAnySign bs).1 ∧ bs = sign ++ (splitAnySign bs).2 := by
  unfold splitAnySign
  split
  · exact ⟨[43], .plus, rfl⟩
  · exact ⟨[45], .minus, rfl⟩
  · exact ⟨[], .none, rfl⟩

theorem not_isSpace_of_isDigit {b : UInt8} (h : isDigit b = true) : isSpace b = false := by
  unfold isDigit isSpace at *
  grind

/-- Where a sign or a digit begins nothing is skipped, and the sign is taken off whole. -/
theorem splitAnySign_digits {sign digits : List UInt8} {negative : Bool} {b : UInt8}
    (hsign : Sign sign negative) (hb : isDigit b = true) :
    splitAnySign ((sign ++ (b :: digits)).dropWhile isSpace) = (negative, b :: digits) := by
  have hspace := not_isSpace_of_isDigit hb
  cases hsign with
  | none =>
    rw [List.nil_append, List.dropWhile_cons_of_neg (by simp [hspace])]
    unfold splitAnySign
    split
    · rename_i heq
      cases heq
      cases hb
    · rename_i heq
      cases heq
      cases hb
    · rfl
  | plus => rfl
  | minus => rfl

theorem takeWhile_digits {digits tail : List UInt8} {n : Nat} (hdigits : Denotes digits n)
    (htail : ∀ b ∈ tail.head?, isDigit b = false) :
    (digits ++ tail).takeWhile isDigit = digits := by
  rw [List.takeWhile_append_of_pos hdigits.digits]
  cases tail with
  | nil => simp
  | cons b tail =>
    rw [List.takeWhile_cons_of_neg (by simp [htail b rfl]), List.append_nil]

/-- A string is read as the number it begins with, whatever follows. -/
theorem stoi_iff {bs : List UInt8} {v : type.Value} : stoi type bs = .ok v ↔ Leading bs v.val := by
  have hread : stoi type bs = .ok v ↔ ∃ rest,
      readDigits type (splitAnySign (bs.dropWhile isSpace)).1
        (splitAnySign (bs.dropWhile isSpace)).2 = .ok (v, rest) := by
    unfold stoi
    simp only
    cases readDigits type _ _ with
    | ok result => simp [Except.map, Prod.ext_iff]
    | error e => simp [Except.map]
  rw [hread]
  constructor
  · rintro ⟨rest, h⟩
    obtain ⟨hnonempty, hv, rfl⟩ := readDigits_ok_iff.mp h
    obtain ⟨sign, hsign, hsplit⟩ := splitAnySign_sign (bs.dropWhile isSpace)
    generalize splitAnySign (bs.dropWhile isSpace) = split at *
    have hbs : bs = bs.takeWhile isSpace ++
        (sign ++ (split.2.takeWhile isDigit ++ split.2.dropWhile isDigit)) := by
      rw [List.takeWhile_append_dropWhile, ← hsplit, List.takeWhile_append_dropWhile]
    rw [hbs, hv]
    refine .intro (fun b hb => List.mem_takeWhile_imp hb) hsign
      (denotes_iff.mpr ⟨hnonempty, fun b hb => List.mem_takeWhile_imp hb, rfl⟩) fun b hb => ?_
    have hstop := List.head?_dropWhile_not isDigit split.2
    rw [hb] at hstop
    exact hstop
  · intro h
    generalize hz : v.val = z at h
    cases h with
    | @intro blanks sign digits tail negative n hblanks hsign hdigits htail =>
      have htake := takeWhile_digits hdigits htail
      obtain ⟨hnonempty, hall, hvalue⟩ := denotes_iff.mp hdigits
      obtain ⟨b, more, rfl⟩ := List.exists_cons_of_ne_nil hnonempty
      rw [List.dropWhile_append_of_pos hblanks, List.cons_append,
        splitAnySign_digits hsign (hall b List.mem_cons_self)]
      refine ⟨_, readDigits_ok_iff.mpr ⟨?_, ?_, rfl⟩⟩
      · rw [← List.cons_append, htake]
        exact hnonempty
      · rw [← List.cons_append, htake, hvalue]
        exact hz

end Leading
end Decimal
end Shared
