import Mathlib
import Almanac.Numeral

/-! Numbers filled up with zeros. The zeros stand behind the sign and in front of the digits, so
that they are read as nothing. A number that is not negative consists of digits alone, and no cut
of a text at another character goes through it. Main statement: a padded number is read back,
whatever its sign, if neither its width nor its digits are too many for a number. -/

namespace Almanac.Numeral

theorem zeroPadded_of_nonneg {n : Int} (width : Nat) (h : 0 ≤ n) :
    zeroPadded width n = List.replicate (width - digitCount n) '0' ++ digits n.natAbs := by
  rw [zeroPadded, if_neg (by omega)]
  rfl

theorem zeroPadded_of_neg {n : Int} (width : Nat) (h : n < 0) :
    zeroPadded width n =
      '-' :: (List.replicate (width - 1 - digitCount n) '0' ++ digits n.natAbs) := by
  rw [zeroPadded, if_pos h]
  rfl

theorem decimal_eq_zeroPadded (n : Int) : decimal n = zeroPadded 0 n := by
  unfold decimal zeroPadded
  split <;> simp [List.leftpad]

theorem number_of_nonneg {n : Int} (width : Int) (h : 0 ≤ n) :
    number n width = zeroPadded width.toNat n := by
  rw [number, decimal, if_neg (not_lt.2 h), zeroPadded_of_nonneg _ h, Int.toNat_sub']

theorem isDigit_or_minus_of_mem_zeroPadded {n : Int} {width : Nat} {c : Char}
    (member : c ∈ zeroPadded width n) : c.isDigit ∨ n < 0 ∧ c = '-' := by
  rcases Int.lt_or_le n 0 with negative | nonneg
  · rw [zeroPadded_of_neg width negative] at member
    rcases List.mem_cons.1 member with minus | digit
    · exact .inr ⟨negative, minus⟩
    · exact .inl (isDigit_of_mem_zeros_digits digit)
  · rw [zeroPadded_of_nonneg width nonneg] at member
    exact .inl (isDigit_of_mem_zeros_digits member)

theorem isDigit_of_mem_zeroPadded {n : Int} {width : Nat} {c : Char} (h : 0 ≤ n)
    (member : c ∈ zeroPadded width n) : c.isDigit := by
  rcases isDigit_or_minus_of_mem_zeroPadded member with digit | ⟨negative, -⟩
  · exact digit
  · omega

theorem not_mem_zeroPadded {n : Int} {width : Nat} {c : Char} (other : c.isDigit = false)
    (noMinus : 0 ≤ n ∨ c ≠ '-') : c ∉ zeroPadded width n := by
  intro member
  rcases isDigit_or_minus_of_mem_zeroPadded member with digit | ⟨negative, minus⟩
  · rw [digit] at other
    cases other
  · exact noMinus.elim (fun nonneg => by omega) fun different => different minus

theorem isBlank_of_mem_zeroPadded {n : Int} {width : Nat} {c : Char}
    (member : c ∈ zeroPadded width n) : Text.isBlank c = false := by
  rcases isDigit_or_minus_of_mem_zeroPadded member with digit | ⟨-, rfl⟩
  · exact isBlank_of_isDigit digit
  · decide

theorem not_mem_decimal {n : Int} {c : Char} (other : c.isDigit = false) (noMinus : c ≠ '-') :
    c ∉ decimal n := by
  rw [decimal_eq_zeroPadded]
  exact not_mem_zeroPadded other (.inr noMinus)

theorem decimal_ne_nil (n : Int) : decimal n ≠ [] := by
  unfold decimal
  split
  · exact List.cons_ne_nil _ _
  · exact digits_ne_nil _

theorem decimal_injective : Function.Injective decimal := by
  intro m n same
  have cuts := congrArg cutSign same
  rw [cutSign_decimal, cutSign_decimal, Prod.mk.injEq, decide_eq_decide] at cuts
  obtain ⟨sign, magnitude⟩ := cuts
  have value := congrArg (Nat.ofDigitChars 10 · 0) magnitude
  simp only [digits, Nat.ofDigitChars_ten_toDigits] at value
  omega

theorem digitCount_le_iff {n : Int} {width : Nat} (positive : 0 < width) :
    digitCount n ≤ width ↔ n.natAbs < 10 ^ width := by
  rw [digitCount, digits, Nat.length_toDigits_le_iff (by decide) positive]

theorem digitCount_le {n : Int} {width : Nat} (h : n.natAbs < 10 ^ width) (positive : 0 < width) :
    digitCount n ≤ width := (digitCount_le_iff positive).2 h

theorem digitCount_le_maxDigits_iff {n : Int} : digitCount n ≤ maxDigits ↔ |n| < 10 ^ maxDigits := by
  rw [digitCount_le_iff (by decide)]
  zify

theorem zeroPadded_ne_nil (width : Nat) (n : Int) : zeroPadded width n ≠ [] := by
  rcases Int.lt_or_le n 0 with negative | nonneg
  · simp [zeroPadded_of_neg width negative]
  · simp [zeroPadded_of_nonneg width nonneg, digits_ne_nil]

theorem length_zeroPadded {n : Int} (width : Nat) (h : 0 ≤ n) :
    (zeroPadded width n).length = max width (digitCount n) := by
  rw [zeroPadded_of_nonneg width h, List.length_append, List.length_replicate]
  unfold digitCount
  omega

def InWidth (width : Nat) (n : Int) : Prop := 0 ≤ n ∧ n < 10 ^ width

theorem length_zeroPadded_of_inWidth {n : Int} {width : Nat} (h : InWidth width n)
    (positive : 0 < width) : (zeroPadded width n).length = width := by
  have small : n.natAbs < 10 ^ width := by
    zify
    rw [abs_of_nonneg h.1]
    exact h.2
  rw [length_zeroPadded width h.1]
  exact max_eq_left (digitCount_le small positive)

theorem ofDigitChars_zeroPadded {n : Int} (width : Nat) (h : 0 ≤ n) :
    Nat.ofDigitChars 10 (zeroPadded width n) 0 = n.natAbs := by
  simp [zeroPadded_of_nonneg width h, Nat.ofDigitChars_append, digits,
    Nat.ofDigitChars_ten_toDigits]

theorem cutSign_zeroPadded (width : Nat) (n : Int) :
    ∃ zeros ≤ width, cutSign (zeroPadded width n) =
      (decide (n < 0), List.replicate (zeros - digitCount n) '0' ++ digits n.natAbs) := by
  rcases Int.lt_or_le n 0 with negative | nonneg
  · refine ⟨width - 1, by omega, ?_⟩
    simp [zeroPadded_of_neg width negative, cutSign, negative]
  · refine ⟨width, Nat.le_refl _, ?_⟩
    rw [zeroPadded_of_nonneg width nonneg, cutSign_of_isDigit]
    · simp [Int.not_lt.2 nonneg]
    · exact fun c => isDigit_of_mem_zeros_digits

theorem readInt?_zeroPadded {width : Nat} {n : Int} (narrow : width ≤ maxDigits)
    (short : digitCount n ≤ maxDigits) : readInt? (zeroPadded width n) = some n := by
  have inside : Text.strip (zeroPadded width n) = zeroPadded width n :=
    Text.strip_eq_self fun c => isBlank_of_mem_zeroPadded
  obtain ⟨zeros, bound, cut⟩ := cutSign_zeroPadded width n
  have magnitude : readDigits? (List.replicate (zeros - digitCount n) '0' ++ digits n.natAbs) =
      some n.natAbs := by
    apply readDigits?_zeros_digits
    unfold digitCount at *
    omega
  simp only [readInt?, inside, cut, magnitude, Option.map_some, signed_natAbs]

end Almanac.Numeral
