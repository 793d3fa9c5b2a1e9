import Mathlib
import Almanac.Literal
import Almanac.Proofs.PaddedNumber

/-! Fractions of a second as digits. Text cut off behind some digits is the quotient by a power of
ten, text filled up with zeros a product. The reader of fractions adds digit by digit; here its
answer is the number of the digits that it keeps, and one more if the digit behind them is 5 or
greater. Main statements: milliseconds written with some digits of a fraction are read as their
multiple of the last digit's unit, with nothing rounded up; and the digits written stand for the
milliseconds themselves if they are such a multiple. -/

namespace Almanac.Numeral

theorem ofDigitChars_cons_zero (c : Char) (rest : Text) :
    Nat.ofDigitChars 10 (c :: rest) 0 =
      10 ^ rest.length * (c.toNat - '0'.toNat) + Nat.ofDigitChars 10 rest 0 := by
  rw [Nat.ofDigitChars_cons, Nat.ofDigitChars_eq_ofDigitChars_zero, Nat.mul_zero, Nat.zero_add]

theorem ofDigitChars_lt {text : Text} (h : ∀ c ∈ text, c.isDigit) :
    Nat.ofDigitChars 10 text 0 < 10 ^ text.length := by
  induction text with
  | nil => simp
  | cons c rest ih =>
    simp only [List.mem_cons, forall_eq_or_imp] at h
    have digit : c.toNat - '0'.toNat ≤ 9 := by
      have bounds := toNat_bounds_of_isDigit h.1
      have zero : '0'.toNat = 48 := rfl
      omega
    have tail := ih h.2
    have head : 10 ^ rest.length * (c.toNat - '0'.toNat) ≤ 10 ^ rest.length * 9 :=
      Nat.mul_le_mul_left _ digit
    rw [ofDigitChars_cons_zero, List.length_cons, pow_succ]
    omega

theorem ofDigitChars_take {text : Text} (h : ∀ c ∈ text, c.isDigit) (kept : Nat) :
    Nat.ofDigitChars 10 (text.take kept) 0 =
      Nat.ofDigitChars 10 text 0 / 10 ^ (text.length - kept) := by
  have dropped : Nat.ofDigitChars 10 (text.drop kept) 0 < 10 ^ (text.length - kept) := by
    have digits : ∀ c ∈ text.drop kept, c.isDigit := fun c member =>
      h c (List.mem_of_mem_drop member)
    have bound := ofDigitChars_lt digits
    rwa [List.length_drop] at bound
  have whole : Nat.ofDigitChars 10 text 0 =
      10 ^ (text.length - kept) * Nat.ofDigitChars 10 (text.take kept) 0 +
        Nat.ofDigitChars 10 (text.drop kept) 0 := by
    conv_lhs => rw [← List.take_append_drop kept text, Nat.ofDigitChars_append,
      Nat.ofDigitChars_eq_ofDigitChars_zero, List.length_drop]
  rw [whole, Nat.mul_add_div (by positivity), Nat.div_eq_of_lt dropped, Nat.add_zero]

theorem ofDigitChars_rightpad (text : Text) (width : Nat) :
    Nat.ofDigitChars 10 (text.rightpad width '0') 0 =
      10 ^ (width - text.length) * Nat.ofDigitChars 10 text 0 := by
  rw [List.rightpad, Nat.ofDigitChars_append, Nat.ofDigitChars_replicate_zero]

def fractionValue (digits : Text) : ℚ :=
  Nat.ofDigitChars 10 digits 0 / 10 ^ digits.length

theorem fractionValue_nonneg (digits : Text) : 0 ≤ fractionValue digits := by
  unfold fractionValue
  positivity

theorem fractionValue_append (front behind : Text) :
    fractionValue (front ++ behind) =
      fractionValue front + fractionValue behind / 10 ^ front.length := by
  rw [fractionValue, Nat.ofDigitChars_append, Nat.ofDigitChars_eq_ofDigitChars_zero,
    List.length_append, pow_add, fractionValue, fractionValue]
  push_cast
  field_simp

theorem fractionValue_rightpad (text : Text) (width : Nat) :
    fractionValue (text.rightpad width '0') = fractionValue text := by
  have zeros : fractionValue (List.replicate (width - text.length) '0') = 0 := by
    rw [fractionValue, ← List.append_nil (List.replicate _ _), Nat.ofDigitChars_append]
    simp [Nat.ofDigitChars_replicate_zero]
  rw [List.rightpad, fractionValue_append, zeros, zero_div, add_zero]

theorem fractionValue_mono {first second : Text} (h : first <+: second) :
    fractionValue first ≤ fractionValue second := by
  obtain ⟨behind, rfl⟩ := h
  have more := fractionValue_nonneg behind
  rw [fractionValue_append]
  exact le_add_of_nonneg_right (by positivity)

theorem fractionValue_lt_one {digits : Text} (h : ∀ c ∈ digits, c.isDigit) :
    fractionValue digits < 1 := by
  have bound : (Nat.ofDigitChars 10 digits 0 : ℚ) < 10 ^ digits.length := by
    exact_mod_cast ofDigitChars_lt h
  rw [fractionValue]
  exact (div_lt_one (by positivity)).2 bound

theorem mul_fractionValue (digits : Text) (places : Nat) :
    10 ^ places * fractionValue digits =
      Nat.ofDigitChars 10 ((digits.take places).rightpad places '0') 0 +
        fractionValue (digits.drop places) := by
  have width : ((digits.take places).rightpad places '0').length = places := by
    rw [List.length_rightpad, List.length_take]
    omega
  have front : 10 ^ places * fractionValue (digits.take places) =
      Nat.ofDigitChars 10 ((digits.take places).rightpad places '0') 0 := by
    rw [← fractionValue_rightpad _ places, fractionValue, width]
    field_simp
  have behind : 10 ^ places * (fractionValue (digits.drop places) /
      10 ^ (digits.take places).length) = fractionValue (digits.drop places) := by
    rcases Nat.le_total places digits.length with few | many
    · rw [List.length_take, min_eq_left few]
      field_simp
    · rw [List.drop_of_length_le many, fractionValue]
      simp
  conv_lhs => rw [← List.take_append_drop places digits]
  rw [fractionValue_append, mul_add, front, behind]

theorem floor_mul_fractionValue {digits : Text} (h : ∀ c ∈ digits, c.isDigit) (places : Nat) :
    ⌊10 ^ places * fractionValue digits⌋ =
      Nat.ofDigitChars 10 ((digits.take places).rightpad places '0') 0 := by
  have rest : ⌊fractionValue (digits.drop places)⌋ = 0 :=
    Int.floor_eq_zero_iff.2 ⟨fractionValue_nonneg _,
      fractionValue_lt_one fun c member => h c (List.mem_of_mem_drop member)⟩
  rw [mul_fractionValue, Int.floor_natCast_add, rest, Int.add_zero]

end Almanac.Numeral

namespace Almanac.Literal
open Numeral

/-- What the digits that are not kept add to the kept ones. -/
def carry (behind : Text) : Nat := if (behind.head?.map fractionDigit).getD 0 < 5 then 0 else 1

theorem fractionDigit_of_isDigit {c : Char} (h : c.isDigit) :
    fractionDigit c = c.toNat - '0'.toNat := by
  rw [fractionDigit, if_pos h]
  rfl

theorem readFraction_eq (more : Nat) {text : Text} (h : ∀ c ∈ text, c.isDigit) :
    readFraction more text =
      Nat.ofDigitChars 10 ((text.take (more + 1)).rightpad (more + 1) '0') 0 +
        carry (text.drop (more + 1)) := by
  induction more generalizing text with
  | zero =>
    cases text with
    | nil => rfl
    | cons c rest =>
      simp only [List.mem_cons, forall_eq_or_imp] at h
      simp [readFraction, carry, fractionDigit_of_isDigit h.1, Nat.ofDigitChars_cons]
  | succ more ih =>
    cases text with
    | nil => simp [readFraction, carry]
    | cons c rest =>
      simp only [List.mem_cons, forall_eq_or_imp] at h
      have tail := ih h.2
      rw [ofDigitChars_rightpad] at tail
      rw [readFraction, tail, fractionDigit_of_isDigit h.1, ofDigitChars_rightpad,
        List.take_succ_cons, List.drop_succ_cons, ofDigitChars_cons_zero]
      have width : (c :: rest.take (more + 1)).length = (rest.take (more + 1)).length + 1 := rfl
      have short : (rest.take (more + 1)).length ≤ more + 1 := List.length_take_le _ _
      generalize (rest.take (more + 1)).length = length at *
      obtain ⟨missing, filled⟩ := Nat.exists_eq_add_of_le short
      change 10 ^ (more + 1) * _ + _ = _
      rw [width, Nat.add_sub_add_right, filled, Nat.add_sub_cancel_left, pow_add]
      ring

theorem length_zeroPadded_millis {millis : Int} (low : 0 ≤ millis) (high : millis < 1000) :
    (zeroPadded 3 millis).length = 3 :=
  length_zeroPadded_of_inWidth ⟨low, high⟩ (by decide)

theorem fractionText_of_le {millis : Int} (low : 0 ≤ millis) (high : millis < 1000)
    {digits : Nat} (few : digits ≤ 3) :
    fractionText millis digits = (zeroPadded 3 millis).take digits := by
  have three := length_zeroPadded_millis low high
  rw [fractionText, List.rightpad, List.length_take, three, min_eq_left few, Nat.sub_self,
    List.replicate_zero, List.append_nil]

theorem fractionText_of_ge {millis : Int} (low : 0 ≤ millis) (high : millis < 1000)
    {digits : Nat} (many : 3 ≤ digits) :
    fractionText millis digits = zeroPadded 3 millis ++ List.replicate (digits - 3) '0' := by
  have three := length_zeroPadded_millis low high
  rw [fractionText, List.take_of_length_le (by omega), List.rightpad, three]

theorem length_fractionText (millis : Int) (digits : Nat) :
    (fractionText millis digits).length = digits := by
  rw [fractionText, List.length_rightpad, List.length_take]
  omega

theorem isDigit_of_mem_fractionText {millis : Int} (low : 0 ≤ millis) {digits : Nat} {c : Char}
    (member : c ∈ fractionText millis digits) : c.isDigit := by
  rcases List.mem_append.1 member with kept | filled
  · exact isDigit_of_mem_zeroPadded low (List.mem_of_mem_take kept)
  · rw [List.eq_of_mem_replicate filled]
    decide

theorem fractionValue_fractionText {millis : Int} (low : 0 ≤ millis) (high : millis < 1000)
    {digits : Nat} (exact : 10 ^ (3 - digits) ∣ millis) :
    1000 * fractionValue (fractionText millis digits) = millis := by
  have three := length_zeroPadded_millis low high
  have value := ofDigitChars_zeroPadded 3 low
  obtain ⟨count, rfl⟩ := Int.eq_ofNat_of_zero_le low
  rw [fractionText, fractionValue_rightpad, fractionValue,
    ofDigitChars_take fun c => isDigit_of_mem_zeroPadded low, List.length_take, three, value,
    Int.natAbs_natCast, Int.cast_natCast]
  have whole : 10 ^ (3 - digits) ∣ count := by exact_mod_cast exact
  rw [Nat.cast_div_charZero whole]
  rcases Nat.le_total digits 3 with few | many
  · have thousand : (1000 : ℚ) = 10 ^ (3 - digits) * 10 ^ digits := by
      rw [← pow_add, Nat.sub_add_cancel few]
      norm_num
    rw [min_eq_left few, thousand]
    push_cast
    field_simp
  · rw [min_eq_right many, Nat.sub_eq_zero_of_le many]
    push_cast
    ring

theorem carry_zeros (count : Nat) : carry (List.replicate count '0') = 0 := by
  cases count <;> rfl

theorem readFraction_fractionText {millis : Int} (low : 0 ≤ millis) (high : millis < 1000)
    (digits : Nat) :
    (readFraction 2 (fractionText millis digits) : Int) =
      millis - millis % 10 ^ (3 - digits) := by
  have three := length_zeroPadded_millis low high
  have value := ofDigitChars_zeroPadded 3 low
  rw [readFraction_eq 2 fun c => isDigit_of_mem_fractionText low]
  rcases Nat.le_total digits 3 with few | many
  · have length : ((zeroPadded 3 millis).take digits).length = digits := by
      rw [List.length_take]
      omega
    rw [fractionText_of_le low high few, List.take_of_length_le (by omega),
      List.drop_of_length_le (by omega), ofDigitChars_rightpad, length,
      ofDigitChars_take fun c => isDigit_of_mem_zeroPadded low, value, three, Int.emod_def]
    push_cast
    rw [abs_of_nonneg low]
    change _ + 0 = _
    ring
  -- behind the three digits of the milliseconds there are zeros only
  · rw [fractionText_of_ge low high many, List.take_left' three, List.drop_left' three,
      carry_zeros, ofDigitChars_rightpad, three, Nat.sub_self, value, Nat.sub_eq_zero_of_le many]
    omega

end Almanac.Literal
