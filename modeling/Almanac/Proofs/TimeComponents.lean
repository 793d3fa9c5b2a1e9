import Almanac.Proofs.PrecisionReading

/-! Time literals by their components. The parts of a literal are told by the separators that they
lack, without a cut or a position. The reader is strict about hour, minute and second, each of which
must be an integer; of the text behind the point it asks nothing, and a character there that is no
digit counts as a zero. Main statement: a time is read if and only if the components that are
present are integers, and it is their sum with the fraction to which the digits round. -/

namespace Almanac.Literal
open Numeral DateFormat

/-- The components of a text, one to three of them, and the text behind the point. -/
inductive TimeParts : Text → List Text → Text → Prop where
  | hour {hour : Text} (noColon : ':' ∉ hour) : TimeParts hour [hour] []
  | minute {hour minute : Text} (noColon : ':' ∉ hour) (noColon' : ':' ∉ minute) :
      TimeParts (hour ++ ':' :: minute) [hour, minute] []
  | second {hour minute second rest fraction : Text} (noColon : ':' ∉ hour)
      (noColon' : ':' ∉ minute) (noPoint : '.' ∉ second) (behind : Behind rest fraction) :
      TimeParts (hour ++ ':' :: minute ++ ':' :: (second ++ rest)) [hour, minute, second] fraction

theorem exists_timeParts (text : Text) :
    ∃ components fraction, TimeParts text components fraction := by
  by_cases colon : ':' ∈ text
  · obtain ⟨hour, afterHour, rfl, noColon⟩ := List.eq_append_cons_of_mem colon
    by_cases colon' : ':' ∈ afterHour
    · obtain ⟨minute, afterMinute, rfl, noColon'⟩ := List.eq_append_cons_of_mem colon'
      rw [← List.cons_append, ← List.append_assoc]
      by_cases point : '.' ∈ afterMinute
      · obtain ⟨second, fraction, rfl, noPoint⟩ := List.eq_append_cons_of_mem point
        exact ⟨_, _, .second noColon noColon' noPoint (.inr rfl)⟩
      · rw [← List.append_nil afterMinute]
        exact ⟨_, _, .second noColon noColon' point (.inl ⟨rfl, rfl⟩)⟩
    · exact ⟨_, _, .minute noColon colon'⟩
  · exact ⟨_, _, .hour colon⟩

theorem timeComponents_of_parts {text fraction : Text} {components : List Text}
    (parts : TimeParts text components fraction) :
    timeComponents text = (components, fraction) := by
  cases parts with
  | hour noColon => rw [timeComponents, Text.pieces_of_not_mem 2 noColon]
  | minute noColon noColon' => rw [timeComponents, Text.pieces_two noColon noColon']
  | second noColon noColon' noPoint behind =>
    exact timeComponents_of_cuts noColon noColon' noPoint behind

abbrev ReadAs : List Text → List Int → Prop :=
  List.Forall₂ fun component value => readInt? component = some value

theorem readComponents_eq_ok_iff {literal : Text} {components : List Text} {values : List Int} :
    readComponents literal components = .ok values ↔ ReadAs components values := by
  induction components generalizing values with
  | nil =>
    rw [ReadAs, List.forall₂_nil_left_iff, readComponents, Except.ok.injEq, eq_comm]
  | cons component rest ih =>
    rw [ReadAs, List.forall₂_cons_left_iff]
    constructor
    · intro read
      obtain ⟨value, first, read⟩ := exists_of_bind_ok read
      obtain ⟨others, later, same⟩ := exists_of_bind_ok read
      cases same
      refine ⟨value, others, ?_, ih.1 later, rfl⟩
      rw [readComponent] at first
      split at first
      · next found =>
        cases first
        exact found
      · cases first
    · rintro ⟨value, others, first, later, rfl⟩
      exact readComponents_cons first (ih.2 later)

def asDigit (c : Char) : Char := if c.isDigit then c else '0'

theorem isDigit_asDigit (c : Char) : (asDigit c).isDigit := by
  unfold asDigit
  split
  · next digit => exact digit
  · rfl

theorem fractionDigit_asDigit (c : Char) : fractionDigit (asDigit c) = fractionDigit c := by
  unfold asDigit
  split
  · rfl
  · next other =>
    rw [fractionDigit, fractionDigit, if_neg other]
    rfl

theorem readFraction_map_asDigit (more : Nat) (text : Text) :
    readFraction more (text.map asDigit) = readFraction more text := by
  induction text generalizing more with
  | nil => cases more <;> rfl
  | cons c rest ih =>
    cases more with
    | zero =>
      -- the digit behind the last one kept decides the rounding, so it is compared as well
      have next : (rest.map asDigit).head?.map fractionDigit = rest.head?.map fractionDigit := by
        rw [List.head?_map, Option.map_map]
        congr 1
        exact funext fractionDigit_asDigit
      rw [List.map_cons, readFraction, readFraction, fractionDigit_asDigit, next]
    | succ more => rw [List.map_cons, readFraction, readFraction, fractionDigit_asDigit, ih]

/-- The digits that a text behind the point is read for, without the blanks around it. -/
def digitsBehind (fraction : Text) : Text := (Text.strip fraction).map asDigit

theorem isDigit_of_mem_digitsBehind {fraction : Text} :
    ∀ c ∈ digitsBehind fraction, c.isDigit := by
  intro c member
  obtain ⟨other, -, rfl⟩ := List.mem_map.1 member
  exact isDigit_asDigit other

theorem readFraction_strip (fraction : Text) :
    (readFraction 2 (Text.strip fraction) : Int) = fractionMillis (digitsBehind fraction) +
      if RoundsUp (digitsBehind fraction) then 1 else 0 := by
  rw [← readFraction_map_asDigit, ← digitsBehind,
    readFraction_eq_fractionMillis isDigit_of_mem_digitsBehind]
  push_cast
  rfl

/-- The time that components, missing ones taken for zero, and a fraction come to. -/
def timeOf (values : List Int) (fraction : Text) : Int :=
  Timestamp.clockMillis (values.getD 0 0) (values.getD 1 0) (values.getD 2 0) +
    (fractionMillis (digitsBehind fraction) + if RoundsUp (digitsBehind fraction) then 1 else 0)

/-- Every literal has its parts, from any position on. It is read as a time if and only if the
components are integers, whatever the text behind the point; each character of that text that is no
digit counts as a zero. -/
theorem readTime_eq_ok_iff (literal : Text) (start : Int) :
    (∃ components fraction, TimeParts (literal.suffixFrom start) components fraction) ∧
    ∀ components fraction, TimeParts (literal.suffixFrom start) components fraction → ∀ time,
      readTime literal start = .ok time ↔
        ∃ values, ReadAs components values ∧ time = timeOf values fraction := by
  refine ⟨exists_timeParts _, fun components fraction parts time => ?_⟩
  rw [readTime, readTimeOf, timeComponents_of_parts parts]
  simp only [readFraction_strip]
  constructor
  · intro read
    obtain ⟨values, taken, same⟩ := exists_of_bind_ok read
    cases same
    exact ⟨values, readComponents_eq_ok_iff.1 taken, rfl⟩
  · rintro ⟨values, taken, rfl⟩
    rw [readComponents_eq_ok_iff.2 taken]
    rfl

theorem readTime_eq_ok_iff_sign_behind_point :
    let literal : Text := "at 12:34:56.-5".toList
    let components : List Text := ["12".toList, "34".toList, "56".toList]
    TimeParts (literal.suffixFrom 3) components "-5".toList ∧ ReadAs components [12, 34, 56] ∧
      '-' ∈ Text.strip "-5".toList ∧ readTime literal 3 = .ok 45296050 := by
  intro literal components
  have text : literal.suffixFrom 3 =
      "12".toList ++ ':' :: "34".toList ++ ':' :: ("56".toList ++ '.' :: "-5".toList) := by decide
  have parts : TimeParts (literal.suffixFrom 3) components "-5".toList := by
    rw [text]
    exact .second (by decide) (by decide) (by decide) (.inr rfl)
  have values : ReadAs components [12, 34, 56] := by decide
  have sum : 45296050 = timeOf [12, 34, 56] "-5".toList := by
    have noFourth : ¬RoundsUp (digitsBehind "-5".toList) := by
      rintro ⟨c, fourth, -⟩
      cases fourth
    rw [timeOf, if_neg noFourth]
    decide
  have read := (readTime_eq_ok_iff literal 3).2 components "-5".toList parts 45296050
  exact ⟨parts, values, by decide, read.2 ⟨[12, 34, 56], values, sum⟩⟩

end Almanac.Literal
