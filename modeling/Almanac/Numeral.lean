import Almanac.Text

/-!
Integers in decimal text, written and read. A reader takes the digits of every script, at most
4300 of them; a writer answers ASCII digits only, and refuses a number that has more of them. Main
statements: a written integer is read back if it is short enough, and leading zeros do not change
what is read.
-/

namespace Almanac.Numeral

def digits (n : Nat) : Text := Nat.toDigits 10 n

def decimal (n : Int) : Text :=
  if n < 0 then '-' :: digits n.natAbs else digits n.natAbs

def digitCount (n : Int) : Nat := (digits n.natAbs).length

/-- Fills up with zeros to the width; a minus sign takes one place of it. -/
def zeroPadded (width : Nat) (n : Int) : Text :=
  if n < 0 then '-' :: (digits n.natAbs).leftpad (width - 1) '0'
  else (digits n.natAbs).leftpad width '0'

/-- Fills up with zeros to the number of digits, in front of a sign too. -/
def number (n : Int) (width : Int) : Text :=
  List.replicate (width - digitCount n).toNat '0' ++ decimal n

/-- The zeros of the scripts that have decimal digits; each starts a run of ten. -/
def digitZeros : List Nat :=
  [0x0030, 0x0660, 0x06F0, 0x07C0, 0x0966, 0x09E6, 0x0A66, 0x0AE6, 0x0B66, 0x0BE6, 0x0C66, 0x0CE6,
    0x0D66, 0x0DE6, 0x0E50, 0x0ED0, 0x0F20, 0x1040, 0x1090, 0x17E0, 0x1810, 0x1946, 0x19D0, 0x1A80,
    0x1A90, 0x1B50, 0x1BB0, 0x1C40, 0x1C50, 0xA620, 0xA8D0, 0xA900, 0xA9D0, 0xA9F0, 0xAA50, 0xABF0,
    0xFF10, 0x104A0, 0x10D30, 0x11066, 0x110F0, 0x11136, 0x111D0, 0x112F0, 0x11450, 0x114D0,
    0x11650, 0x116C0, 0x11730, 0x118E0, 0x11950, 0x11C50, 0x11D50, 0x11DA0, 0x16A60, 0x16AC0,
    0x16B50, 0x1D7CE, 0x1D7D8, 0x1D7E2, 0x1D7EC, 0x1D7F6, 0x1E140, 0x1E2F0, 0x1E950, 0x1FBF0]

def digitValue? (c : Char) : Option Nat :=
  digitZeros.findSome? fun start =>
    if start ≤ c.toNat ∧ c.toNat ≤ start + 9 then some (c.toNat - start) else none

theorem toNat_bounds_of_isDigit {c : Char} (h : c.isDigit) : 0x30 ≤ c.toNat ∧ c.toNat ≤ 0x39 := by
  simp only [Char.isDigit, Bool.and_eq_true, decide_eq_true_eq, ge_iff_le,
    UInt32.le_iff_toNat_le] at h
  exact h

theorem digitValue?_ascii {c : Char} (h : c.isDigit) : digitValue? c = some (c.toNat - 48) := by
  simp [digitValue?, digitZeros, toNat_bounds_of_isDigit h]

def ofDigits (values : List Nat) : Nat :=
  values.foldl (fun value digit => 10 * value + digit) 0

def digitValues? (text : Text) : Option (List Nat) :=
  if text = [] then none else text.mapM digitValue?

/-- An integer of more digits is refused, leading zeros counted. -/
def maxDigits : Nat := 4300

/-- A text has fewer characters. -/
def maxLength : Nat := 9223372036854775808

/-- What keeps a number from being written. -/
inductive WriteFault where
  | digitLimit
  | noLength
deriving DecidableEq, Repr

/-- A text that shows a number, and beside it some more characters; the digits of the number are
counted first. The text is not made before it is known that it can be. -/
@[macro_inline]
def limited (number more : Int) (text : Text) : Except WriteFault Text :=
  if maxDigits < digitCount number then .error .digitLimit
  else if maxLength ≤ more then .error .noLength
  else .ok text

theorem limited_eq_ok_iff {number more : Int} {text shown : Text} :
    limited number more text = .ok shown ↔
      digitCount number ≤ maxDigits ∧ more < maxLength ∧ text = shown := by
  unfold limited
  split
  · next long => simp [Nat.not_le.2 long]
  · next short =>
    split
    · next wide => simp [Int.not_lt.2 wide]
    · next narrow => simp [Nat.not_lt.1 short, Int.not_le.1 narrow]

theorem limited_eq_digitLimit_iff {number more : Int} {text : Text} :
    limited number more text = .error .digitLimit ↔ maxDigits < digitCount number := by
  unfold limited
  split
  · next long => simp [long]
  · next short => split <;> simp [short]

theorem limited_eq_noLength_iff {number more : Int} {text : Text} :
    limited number more text = .error .noLength ↔
      digitCount number ≤ maxDigits ∧ maxLength ≤ more := by
  unfold limited
  split
  · next long => simp [Nat.not_le.2 long]
  · next short => split <;> simp_all

def numberText (n width : Int) : Except WriteFault Text :=
  limited n (width - digitCount n) (number n width)

def readDigits? (text : Text) : Option Nat :=
  if maxDigits < text.length then none else (digitValues? text).map ofDigits

def cutSign : Text → Bool × Text
  | '-' :: rest => (true, rest)
  | '+' :: rest => (false, rest)
  | text => (false, text)

def signed (negative : Bool) (magnitude : Nat) : Int :=
  if negative then -magnitude else magnitude

/-- Reads digits after at most one sign, blanks around them allowed. -/
def readInt? (text : Text) : Option Int :=
  let (negative, magnitude) := cutSign (Text.strip text)
  (readDigits? magnitude).map (signed negative)

theorem isDigit_of_mem_digits {c : Char} {n : Nat} (h : c ∈ digits n) : c.isDigit :=
  Nat.isDigit_of_mem_toDigits (by decide) (by decide) h

theorem isDigit_of_mem_zeros_digits {zeros n : Nat} {c : Char}
    (member : c ∈ List.replicate zeros '0' ++ digits n) : c.isDigit := by
  rcases List.mem_append.1 member with zero | digit
  · rw [List.eq_of_mem_replicate zero]
    decide
  · exact isDigit_of_mem_digits digit

theorem digits_ne_nil (n : Nat) : digits n ≠ [] := Nat.toDigits_ne_nil

theorem mapM_digitValue?_ascii {text : Text} (h : ∀ c ∈ text, c.isDigit) :
    text.mapM digitValue? = some (text.map fun c => c.toNat - 48) := by
  induction text with
  | nil => rfl
  | cons c rest ih =>
    simp only [List.mem_cons, forall_eq_or_imp] at h
    simp [List.mapM_cons, digitValue?_ascii h.1, ih h.2]

theorem ofDigits_ascii (text : Text) :
    ofDigits (text.map fun c => c.toNat - 48) = Nat.ofDigitChars 10 text 0 := by
  simp [ofDigits, Nat.ofDigitChars, List.foldl_map]

theorem readDigits?_ascii {text : Text} (h : ∀ c ∈ text, c.isDigit) (nonempty : text ≠ [])
    (short : text.length ≤ maxDigits) :
    readDigits? text = some (Nat.ofDigitChars 10 text 0) := by
  simp [readDigits?, digitValues?, nonempty, Nat.not_lt.2 short, mapM_digitValue?_ascii h,
    ofDigits_ascii]

theorem readDigits?_zeros_digits (zeros n : Nat) (short : zeros + (digits n).length ≤ maxDigits) :
    readDigits? (List.replicate zeros '0' ++ digits n) = some n := by
  have ascii : ∀ c ∈ List.replicate zeros '0' ++ digits n, c.isDigit := fun c =>
    isDigit_of_mem_zeros_digits
  rw [readDigits?_ascii ascii (by simp [digits_ne_nil]) (by simpa using short)]
  simp [Nat.ofDigitChars_append, digits, Nat.ofDigitChars_ten_toDigits]

theorem isBlank_of_isDigit {c : Char} (h : c.isDigit) : Text.isBlank c = false := by
  have bounds := toNat_bounds_of_isDigit h
  simp only [Text.isBlank, Bool.or_eq_false_iff, Bool.and_eq_false_iff, decide_eq_false_iff_not,
    beq_eq_false_iff_ne]
  omega

theorem strip_decimal (n : Int) : Text.strip (decimal n) = decimal n := by
  refine Text.strip_eq_self fun c member => ?_
  unfold decimal at member
  split at member
  · rcases List.mem_cons.1 member with rfl | h
    · decide
    · exact isBlank_of_isDigit (isDigit_of_mem_digits h)
  · exact isBlank_of_isDigit (isDigit_of_mem_digits member)

theorem readDigits?_digits {n : Nat} (short : (digits n).length ≤ maxDigits) :
    readDigits? (digits n) = some n := by
  have := readDigits?_zeros_digits 0 n (by simpa using short)
  simpa using this

theorem cutSign_of_isDigit {text : Text} (h : ∀ c ∈ text, c.isDigit) :
    cutSign text = (false, text) := by
  unfold cutSign
  split
  · exact absurd (h '-' (by simp)) (by decide)
  · exact absurd (h '+' (by simp)) (by decide)
  · rfl

theorem cutSign_digits (n : Nat) : cutSign (digits n) = (false, digits n) :=
  cutSign_of_isDigit fun _ => isDigit_of_mem_digits

theorem cutSign_decimal (n : Int) : cutSign (decimal n) = (decide (n < 0), digits n.natAbs) := by
  by_cases negative : n < 0
  · simp [decimal, negative, cutSign]
  · simp [decimal, negative, cutSign_digits]

theorem signed_natAbs (n : Int) : signed (decide (n < 0)) n.natAbs = n := by
  simp only [signed, decide_eq_true_eq]
  split <;> omega

theorem readInt?_decimal {n : Int} (short : digitCount n ≤ maxDigits) :
    readInt? (decimal n) = some n := by
  simp only [readInt?, strip_decimal, cutSign_decimal, readDigits?_digits short, Option.map_some,
    signed_natAbs]

end Almanac.Numeral
