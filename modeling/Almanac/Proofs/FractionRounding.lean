import Almanac.Proofs.LiteralReadback

/-! Fractions of any length rounded half up. Moving the point behind the digits that are kept makes
them a whole number and leaves a fraction, and half of one is reached where the first digit of that
fraction is 5 or greater; no later digit matters. The numbers in front of the point hold no colon
and no point of their own, whatever script, sign or blanks they are written with. Main statement:
the reader of fractions answers the exact number rounded half up, and a time literal is the sum of
its components and the milliseconds of its fraction, which may be a whole second. -/

namespace Almanac.Numeral

theorem digitValues?_eq_none {text : Text} {c : Char} (member : c ∈ text)
    (other : digitValue? c = none) : digitValues? text = none := by
  have values : text.mapM digitValue? = none := by
    induction text with
    | nil => cases member
    | cons first rest ih =>
      rw [List.mapM_cons]
      rcases List.mem_cons.1 member with rfl | later
      · rw [other]
        rfl
      · rw [ih later]
        cases digitValue? first <;> rfl
  rw [digitValues?, values, ite_self]

theorem readInt?_eq_none {text : Text} {c : Char} (member : c ∈ text)
    (visible : Text.isBlank c = false) (noSign : c ≠ '-' ∧ c ≠ '+')
    (other : digitValue? c = none) : readInt? text = none := by
  obtain ⟨front, back, whole, blanks⟩ := Text.eq_append_strip_append text
  have inside : c ∈ Text.strip text := by
    rw [whole, List.append_assoc, List.mem_append, List.mem_append] at member
    rcases member with ahead | inside | behind
    · rw [blanks c (List.mem_append_left _ ahead)] at visible
      cases visible
    · exact inside
    · rw [blanks c (List.mem_append_right _ behind)] at visible
      cases visible
  have magnitude : c ∈ (cutSign (Text.strip text)).2 := by
    unfold cutSign
    split
    · next rest same =>
      rw [same] at inside
      exact (List.mem_cons.1 inside).resolve_left noSign.1
    · next rest same =>
      rw [same] at inside
      exact (List.mem_cons.1 inside).resolve_left noSign.2
    · exact inside
  rw [readInt?]
  simp only [readDigits?, digitValues?_eq_none magnitude other, Option.map_none, ite_self]

section
variable {text : Text} {n : Int} (read : readInt? text = some n)
include read

theorem not_mem_of_readInt? {c : Char} (visible : Text.isBlank c = false)
    (noSign : c ≠ '-' ∧ c ≠ '+') (other : digitValue? c = none) : c ∉ text := by
  intro member
  rw [readInt?_eq_none member visible noSign other] at read
  cases read

theorem noColon_of_readInt? : ':' ∉ text :=
  not_mem_of_readInt? read (by decide) (by decide) (by decide)

theorem noPoint_of_readInt? : '.' ∉ text :=
  not_mem_of_readInt? read (by decide) (by decide) (by decide)

end

end Almanac.Numeral

namespace Almanac.Literal
open Numeral

theorem fractionDigit_le_nine {c : Char} (h : c.isDigit) : fractionDigit c ≤ 9 := by
  have bounds := toNat_bounds_of_isDigit h
  have zero : '0'.toNat = 48 := rfl
  rw [fractionDigit_of_isDigit h]
  omega

theorem fractionValue_cons {c : Char} (h : c.isDigit) (rest : Text) :
    fractionValue (c :: rest) = (fractionDigit c + fractionValue rest) / 10 := by
  have single : fractionValue [c] = fractionDigit c / 10 := by
    rw [fractionDigit_of_isDigit h]
    simp [fractionValue, Nat.ofDigitChars_cons]
  rw [← List.singleton_append, fractionValue_append, single, List.length_singleton, pow_one,
    add_div]

theorem floor_fractionValue_add_half {digits : Text} (h : ∀ c ∈ digits, c.isDigit) :
    ⌊fractionValue digits + 1 / 2⌋ = carry digits := by
  cases digits with
  | nil => norm_num [fractionValue, carry]
  | cons c rest =>
    simp only [List.mem_cons, forall_eq_or_imp] at h
    have low := fractionValue_nonneg rest
    have high := fractionValue_lt_one h.2
    rw [fractionValue_cons h.1, Int.floor_eq_iff, carry, List.head?_cons, Option.map_some,
      Option.getD_some]
    split
    · next less =>
      have digit : (fractionDigit c : ℚ) ≤ 4 := by exact_mod_cast Nat.le_of_lt_succ less
      push_cast
      constructor
      · positivity
      · linarith
    · next more =>
      have digit : (5 : ℚ) ≤ fractionDigit c := by exact_mod_cast Nat.le_of_not_lt more
      have digit' : (fractionDigit c : ℚ) ≤ 9 := by exact_mod_cast fractionDigit_le_nine h.1
      push_cast
      constructor <;> linarith

section
variable {fraction : Text} (digits : ∀ c ∈ fraction, c.isDigit)
include digits

theorem readFraction_eq_floor (more : Nat) :
    (readFraction more fraction : Int) = ⌊10 ^ (more + 1) * fractionValue fraction + 1 / 2⌋ := by
  rw [readFraction_eq more digits, mul_fractionValue, add_assoc, Int.floor_natCast_add,
    floor_fractionValue_add_half fun c member => digits c (List.mem_of_mem_drop member)]
  push_cast
  rfl

theorem readTime_of_components {hour minute second : Text} {h m s : Int}
    (hour' : readInt? hour = some h) (minute' : readInt? minute = some m)
    (second' : readInt? second = some s) :
    readTime (hour ++ ':' :: minute ++ ':' :: (second ++ '.' :: fraction)) 0 =
      .ok (Timestamp.clockMillis h m s + readFraction 2 fraction) := by
  rw [readTime, Text.suffixFrom_zero, readTimeOf_of_components _ (noColon_of_readInt? hour')
    (noColon_of_readInt? minute') (noPoint_of_readInt? second') (.inr rfl) hour' minute' second',
    Text.strip_eq_self fun c member => isBlank_of_isDigit (digits c member)]

/-- A fraction is rounded half up at the last digit kept, however many digits it has, and a time
is the sum of its components, with the fraction in milliseconds. -/
theorem readFraction_readTime_roundHalfUp :
    (∀ more, (readFraction more fraction : Int) =
      ⌊10 ^ (more + 1) * fractionValue fraction + 1 / 2⌋) ∧
    ∀ hour minute second h m s, readInt? hour = some h → readInt? minute = some m →
      readInt? second = some s →
      readTime (hour ++ ':' :: minute ++ ':' :: (second ++ '.' :: fraction)) 0 =
        .ok (3600000 * h + 60000 * m + 1000 * s + ⌊1000 * fractionValue fraction + 1 / 2⌋) := by
  refine ⟨readFraction_eq_floor digits, fun hour minute second h m s hour' minute' second' => ?_⟩
  have thousand : (1000 : ℚ) = 10 ^ (2 + 1) := by norm_num
  rw [readTime_of_components digits hour' minute' second', thousand, ← readFraction_eq_floor digits]
  simp only [Timestamp.clockMillis, millisPerHour, millisPerMinute, millisPerSecond]
  congr 2
  ring

end

theorem readFraction_readTime_roundHalfUp_midnight :
    (∀ c ∈ "9995".toList, c.isDigit) ∧ readFraction 0 "9995".toList = 10 ∧
      readInt? " 23".toList = some 23 ∧ readInt? "+59".toList = some 59 ∧
      readInt? "059".toList = some 59 ∧
      readTime " 23:+59:059.9995".toList 0 = .ok 86400000 := by
  have digits : ∀ c ∈ "9995".toList, c.isDigit := List.all_eq_true.1 (by decide)
  have hour : readInt? " 23".toList = some 23 := by decide
  have minute : readInt? "+59".toList = some 59 := by decide
  have second : readInt? "059".toList = some 59 := by decide
  have number : Nat.ofDigitChars 10 "9995".toList 0 = 9995 := rfl
  have length : "9995".toList.length = 4 := rfl
  obtain ⟨rounded, read⟩ := readFraction_readTime_roundHalfUp digits
  have tenths := rounded 0
  have time := read _ _ _ _ _ _ hour minute second
  rw [fractionValue, number, length] at tenths time
  norm_num at tenths time
  exact ⟨digits, by exact_mod_cast tenths, hour, minute, second, time⟩

end Almanac.Literal
