import Almanac.Proofs.FractionRounding

/-! Numbers filled up with zeros in front of the sign, read as components of a literal. A minus sign
behind a zero stands no longer at the front, where a sign is taken off, and is no digit either. Main
statement: the text of a number has at least the digits asked for, and the reader of components
answers the number, or refuses the text: it refuses every negative number that zeros were put in
front of, and what has grown too long for a number. -/

namespace Almanac.Numeral

theorem number_of_le {n width : Int} (h : width ≤ digitCount n) : number n width = decimal n := by
  have none : (width - digitCount n).toNat = 0 := by omega
  rw [number, none]
  rfl

theorem number_of_neg {n : Int} (width : Int) (negative : n < 0) :
    number n width =
      List.replicate (width - digitCount n).toNat '0' ++ '-' :: digits n.natAbs := by
  rw [number, decimal, if_pos negative]

theorem countP_isDigit_decimal (n : Int) : (decimal n).countP Char.isDigit = digitCount n := by
  have all : (digits n.natAbs).countP Char.isDigit = digitCount n :=
    List.countP_eq_length.2 fun _ => isDigit_of_mem_digits
  rw [decimal]
  split
  · rw [List.countP_cons_of_neg (by decide), all]
  · exact all

theorem countP_isDigit_number (n width : Int) :
    ((number n width).countP Char.isDigit : Int) = max (digitCount n : Int) width := by
  have zeros : (List.replicate (width - digitCount n).toNat '0').countP Char.isDigit =
      (width - digitCount n).toNat := by
    rw [List.countP_replicate, if_pos (by decide)]
  rw [number, List.countP_append, zeros, countP_isDigit_decimal]
  omega

theorem strip_number (n width : Int) : Text.strip (number n width) = number n width := by
  refine Text.strip_eq_self fun c member => ?_
  rcases List.mem_append.1 member with zero | written
  · rw [List.eq_of_mem_replicate zero]
    decide
  · rw [decimal_eq_zeroPadded] at written
    exact isBlank_of_mem_zeroPadded written

theorem readInt?_number_of_neg {n width : Int} (negative : n < 0) (filled : digitCount n < width) :
    readInt? (number n width) = none := by
  obtain ⟨zeros, more⟩ := Nat.exists_eq_succ_of_ne_zero
    (show (width - digitCount n).toNat ≠ 0 by omega)
  have text := number_of_neg width negative
  rw [more, List.replicate_succ, List.cons_append] at text
  -- the first zero hides the sign, and no text of digits holds one
  have unsigned : cutSign (number n width) = (false, number n width) := by
    rw [text]
    rfl
  have minus : '-' ∈ number n width := by simp [text]
  have refused := digitValues?_eq_none minus (by decide)
  simp only [readInt?, strip_number, unsigned, readDigits?, refused, Option.map_none, ite_self]

theorem readInt?_number_of_long {n width : Int} (nonneg : 0 ≤ n) (long : maxDigits < width) :
    readInt? (number n width) = none := by
  have text := number_of_nonneg width nonneg
  have unsigned : cutSign (number n width) = (false, number n width) := by
    rw [text]
    exact cutSign_of_isDigit fun c => isDigit_of_mem_zeroPadded nonneg
  have length : maxDigits < (number n width).length := by
    rw [text, length_zeroPadded _ nonneg]
    omega
  simp only [readInt?, strip_number, unsigned, readDigits?, if_pos length, Option.map_none]

theorem readInt?_number_of_nonneg {n width : Int} (nonneg : 0 ≤ n)
    (short : digitCount n ≤ maxDigits) (narrow : width ≤ maxDigits) :
    readInt? (number n width) = some n := by
  rw [number_of_nonneg width nonneg]
  exact readInt?_zeroPadded (by omega) short

/-- No zeros are added, or they are added to a number without a sign and are not too many. -/
def KeepsNumber (n width : Int) : Prop :=
  width ≤ digitCount n ∨ 0 ≤ n ∧ width ≤ maxDigits

instance (n width : Int) : Decidable (KeepsNumber n width) :=
  inferInstanceAs (Decidable (_ ∨ _))

theorem readInt?_number {n : Int} (width : Int) (short : digitCount n ≤ maxDigits) :
    readInt? (number n width) = if KeepsNumber n width then some n else none := by
  -- only a text that zeros were added to can hide a sign or grow too long
  rcases Int.lt_or_le (digitCount n) width with filled | unfilled
  · rcases Int.lt_or_le n 0 with negative | nonneg
    · rw [if_neg (by unfold KeepsNumber; omega), readInt?_number_of_neg negative filled]
    · rcases Int.lt_or_le maxDigits width with long | narrow
      · rw [if_neg (by unfold KeepsNumber; omega), readInt?_number_of_long nonneg long]
      · rw [if_pos (.inr ⟨nonneg, narrow⟩), readInt?_number_of_nonneg nonneg short narrow]
  · rw [if_pos (.inl unfilled), number_of_le unfilled, readInt?_decimal short]

end Almanac.Numeral

namespace Almanac.Literal
open Numeral

theorem readComponent_number {n : Int} (short : digitCount n ≤ maxDigits) (width : Int)
    (literal : Text) :
    ((number n width).countP Char.isDigit : Int) = max (digitCount n : Int) width ∧
      readComponent literal (number n width) =
        if KeepsNumber n width then .ok n else .error ⟨literal, number n width⟩ := by
  refine ⟨countP_isDigit_number n width, ?_⟩
  rw [readComponent, readInt?_number width short]
  by_cases kept : KeepsNumber n width
  · simp only [if_pos kept]
  · simp only [if_neg kept]

theorem readComponent_number_sign_behind_zeros :
    digitCount (-5) ≤ maxDigits ∧ number (-5) 3 = "00-5".toList ∧
      (number (-5) 3).countP Char.isDigit = 3 ∧
      readComponent "00-5".toList (number (-5) 3) = .error ⟨"00-5".toList, "00-5".toList⟩ := by
  have short : digitCount (-5) ≤ maxDigits := by decide
  have text : number (-5) 3 = "00-5".toList := by decide
  have width : max (digitCount (-5) : Int) 3 = 3 := by decide
  obtain ⟨digits, unread⟩ := readComponent_number short 3 "00-5".toList
  rw [width] at digits
  rw [if_neg (by decide), text] at unread
  exact ⟨short, text, by exact_mod_cast digits, text ▸ unread⟩

end Almanac.Literal
