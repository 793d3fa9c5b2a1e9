import Almanac.Proofs.IntegerText
import Almanac.Proofs.TimeComponents

/-! Literals that are refused. A date has up to three components between its hyphens, a time up to
three between its colons, the last one cut at a point, and a timestamp those of its date and then
those of its time. A component that is no integer is an error of its own; the readers answer the
first of these errors and no other. Main statement: each of the three readers fails if and only if
a component is no integer, and with the error of the leftmost such one. -/

namespace Almanac.Literal
open Numeral

/-- A component that holds an underscore or is no integer between its blanks. -/
def Refused (component : Text) : Prop := '_' ∈ component ∨ ¬IsInteger (Text.strip component)

theorem readInt?_eq_none_iff {component : Text} :
    readInt? component = none ↔ Refused component := by
  rw [← not_iff_not, ← ne_eq, readInt?_ne_none_iff, Refused, not_or, not_not]

instance (component : Text) : Decidable (Refused component) :=
  decidable_of_iff _ readInt?_eq_none_iff

/-- The components of a date literal, told by the hyphens that they lack. -/
inductive DateParts : Text → List Text → Prop where
  | year {year : Text} (noHyphen : '-' ∉ year) : DateParts year [year]
  | month {year month : Text} (noHyphen : '-' ∉ year) (noHyphen' : '-' ∉ month) :
      DateParts (year ++ '-' :: month) [year, month]
  | day {year month day : Text} (noHyphen : '-' ∉ year) (noHyphen' : '-' ∉ month) :
      DateParts (year ++ '-' :: month ++ '-' :: day) [year, month, day]

theorem exists_dateParts (text : Text) : ∃ components, DateParts text components := by
  by_cases hyphen : '-' ∈ text
  · obtain ⟨year, afterYear, rfl, noHyphen⟩ := List.eq_append_cons_of_mem hyphen
    by_cases hyphen' : '-' ∈ afterYear
    · obtain ⟨month, day, rfl, noHyphen'⟩ := List.eq_append_cons_of_mem hyphen'
      rw [← List.cons_append, ← List.append_assoc]
      exact ⟨_, .day noHyphen noHyphen'⟩
    · exact ⟨_, .month noHyphen hyphen'⟩
  · exact ⟨_, .year hyphen⟩

theorem dateComponents_of_parts {text : Text} {components : List Text}
    (parts : DateParts text components) : dateComponents text = components := by
  cases parts with
  | year noHyphen => exact Text.pieces_of_not_mem 2 noHyphen
  | month noHyphen noHyphen' => exact Text.pieces_two noHyphen noHyphen'
  | day noHyphen noHyphen' => exact Text.pieces_three _ noHyphen noHyphen'

/-- The text of the date in a timestamp literal, the date's components, and those of the time; no
component of a time if there is no space. -/
inductive TimestampParts : Text → Text → List Text → List Text → Prop where
  | date {date : Text} {components : List Text} (noSpace : ' ' ∉ date)
      (parts : DateParts date components) : TimestampParts date date components []
  | time {date time fraction : Text} {components components' : List Text} (noSpace : ' ' ∉ date)
      (parts : DateParts date components) (parts' : TimeParts time components' fraction) :
      TimestampParts (date ++ ' ' :: time) date components components'

theorem exists_timestampParts (text : Text) :
    ∃ date components components', TimestampParts text date components components' := by
  by_cases space : ' ' ∈ text
  · obtain ⟨date, time, rfl, noSpace⟩ := List.eq_append_cons_of_mem space
    obtain ⟨components, parts⟩ := exists_dateParts date
    obtain ⟨components', fraction, parts'⟩ := exists_timeParts time
    exact ⟨_, _, _, .time noSpace parts parts'⟩
  · obtain ⟨components, parts⟩ := exists_dateParts text
    exact ⟨_, _, _, .date space parts⟩

def errorsOf (literal : Text) (components : List Text) : List ReadError :=
  components.map (ReadError.mk literal)

def firstRefused? (errors : List ReadError) : Option ReadError :=
  errors.find? fun error => Refused error.component

theorem firstRefused?_cons (error : ReadError) (errors : List ReadError) :
    firstRefused? (error :: errors) =
      if Refused error.component then some error else firstRefused? errors := by
  rw [firstRefused?, List.find?_cons]
  by_cases refused : Refused error.component
  · rw [if_pos refused, decide_eq_true refused]
  · rw [if_neg refused, decide_eq_false refused]
    rfl

theorem firstRefused?_append (errors errors' : List ReadError) :
    firstRefused? (errors ++ errors') = (firstRefused? errors).or (firstRefused? errors') :=
  List.find?_append

def failure? {ε α : Type} : Except ε α → Option ε
  | .error error => some error
  | .ok _ => none

theorem failure?_eq_some_iff {ε α : Type} {outcome : Except ε α} {error : ε} :
    failure? outcome = some error ↔ outcome = .error error := by
  cases outcome <;> simp [failure?]

theorem failure?_bind {ε α β : Type} {x : Except ε α} {f : α → Except ε β} {later : Option ε}
    (h : ∀ a, failure? (f a) = later) : failure? (x >>= f) = (failure? x).or later := by
  cases x with
  | error error => rfl
  | ok a => exact h a

theorem failure?_map {ε α β : Type} {x : Except ε α} {f : α → β} :
    failure? (x >>= fun a => pure (f a)) = failure? x := by
  cases x <;> rfl

theorem failure?_readComponents (literal : Text) (components : List Text) :
    failure? (readComponents literal components) = firstRefused? (errorsOf literal components) := by
  induction components with
  | nil => rfl
  | cons component rest ih =>
    have others : ∀ first, failure? (readComponents literal rest >>= fun others =>
        pure (first :: others)) = firstRefused? (errorsOf literal rest) := fun first => by
      rw [failure?_map, ih]
    have errors : errorsOf literal (component :: rest) =
        ⟨literal, component⟩ :: errorsOf literal rest := List.map_cons
    rw [readComponents, failure?_bind others, readComponent, errors, firstRefused?_cons]
    cases read : readInt? component with
    | none => rw [if_pos (readInt?_eq_none_iff.1 read), failure?, Option.some_or]
    | some n =>
      have taken : ¬Refused component := fun refused => by
        rw [readInt?_eq_none_iff.2 refused] at read
        cases read
      rw [if_neg taken, failure?, Option.none_or]

theorem failure?_readDate (literal : Text) :
    failure? (readDate literal) = firstRefused? (errorsOf literal (dateComponents literal)) := by
  rw [readDate, failure?_map, failure?_readComponents]

theorem failure?_readTimeOf (literal text : Text) :
    failure? (readTimeOf literal text) =
      firstRefused? (errorsOf literal (timeComponents text).1) := by
  simp only [readTimeOf, failure?_map, failure?_readComponents]

theorem failure?_readTimestamp {text date : Text} {components components' : List Text}
    (parts : TimestampParts (Text.strip text) date components components') :
    failure? (readTimestamp text) =
      firstRefused? (errorsOf date components ++ errorsOf (Text.strip text) components') := by
  rw [readTimestamp]
  generalize Text.strip text = literal at parts
  cases parts with
  | date noSpace parts =>
    rw [Text.cutAt?_eq_none_iff.2 noSpace, errorsOf, errorsOf, List.map_nil, List.append_nil]
    simp only [failure?_map, failure?_readDate, dateComponents_of_parts parts]
    rfl
  | @time date time _ _ _ noSpace parts parts' =>
    have later : ∀ d, failure? (readTimeOf (date ++ ' ' :: time) time >>= fun t =>
        pure (Timestamp.onDate d t)) = firstRefused? (errorsOf (date ++ ' ' :: time) components') :=
      fun d => by rw [failure?_map, failure?_readTimeOf, timeComponents_of_parts parts']
    rw [Text.cutAt?_append _ noSpace, firstRefused?_append, ← dateComponents_of_parts parts,
      ← failure?_readDate]
    exact failure?_bind later

/-- An outcome is an error just if some component is refused, and then it is the error of the first
such one. -/
def FailsAtFirst (outcome : Except ReadError Int) (errors : List ReadError) : Prop :=
  ((∃ error, outcome = .error error) ↔ ∃ error ∈ errors, Refused error.component) ∧
    ∀ error, outcome = .error error ↔ ∃ before after, errors = before ++ error :: after ∧
      (∀ earlier ∈ before, ¬Refused earlier.component) ∧ Refused error.component

theorem failsAtFirst_of_failure? {outcome : Except ReadError Int} {errors : List ReadError}
    (h : failure? outcome = firstRefused? errors) : FailsAtFirst outcome errors := by
  constructor
  · have some : (failure? outcome).isSome ↔ ∃ error ∈ errors, Refused error.component := by
      rw [h, firstRefused?, List.find?_isSome]
      simp only [decide_eq_true_eq]
    rw [← some, Option.isSome_iff_exists]
    simp only [failure?_eq_some_iff]
  · intro error
    rw [← failure?_eq_some_iff, h, firstRefused?, List.find?_eq_some_iff_append]
    simp only [decide_eq_true_eq, Bool.not_eq_true', decide_eq_false_iff_not]
    constructor
    · rintro ⟨refused, before, after, same, taken⟩
      exact ⟨before, after, same, taken, refused⟩
    · rintro ⟨before, after, same, taken, refused⟩
      exact ⟨refused, before, after, same, taken⟩

/-- Every literal has its components. The readers of dates, times and timestamps fail if and only
if one of them is refused, and their error names the leftmost one as it stands in the text. The
whole text of a date or a time is named with it; of a timestamp, whose blanks at both ends do not
count, a date's component is named with the text of the date, a time's with the whole literal. -/
theorem readers_failAtFirst :
    (∀ literal, (∃ components, DateParts literal components) ∧
      ∀ components, DateParts literal components →
        FailsAtFirst (readDate literal) (errorsOf literal components)) ∧
    (∀ literal start,
      (∃ components fraction, TimeParts (literal.suffixFrom start) components fraction) ∧
      ∀ components fraction, TimeParts (literal.suffixFrom start) components fraction →
        FailsAtFirst (readTime literal start) (errorsOf literal components)) ∧
    ∀ text,
      (∃ date components components',
        TimestampParts (Text.strip text) date components components') ∧
      ∀ date components components',
        TimestampParts (Text.strip text) date components components' →
        FailsAtFirst (readTimestamp text)
          (errorsOf date components ++ errorsOf (Text.strip text) components') := by
  refine ⟨fun literal => ⟨exists_dateParts _, fun components parts => ?_⟩,
    fun literal start => ⟨exists_timeParts _, fun components fraction parts => ?_⟩,
    fun text => ⟨exists_timestampParts _, fun date components components' parts => ?_⟩⟩
  · apply failsAtFirst_of_failure?
    rw [failure?_readDate, dateComponents_of_parts parts]
  · apply failsAtFirst_of_failure?
    rw [readTime, failure?_readTimeOf, timeComponents_of_parts parts]
  · exact failsAtFirst_of_failure? (failure?_readTimestamp parts)

/-- A month that is missing between its hyphens, a minute with a blank inside, and a minute that is
an integer but for its underscore, in front of a second that is none either. -/
theorem readers_failAtFirst_underscore :
    let date : Text := "2021--5".toList
    let time : Text := "at 12:3 4:5".toList
    let timestamp : Text := "\t2020-+2-\t3 4:5_9:x.y\n".toList
    (DateParts date ["2021".toList, [], "5".toList] ∧ readDate date = .error ⟨date, []⟩) ∧
    (TimeParts (time.suffixFrom 3) ["12".toList, "3 4".toList, "5".toList] [] ∧
      readTime time 3 = .error ⟨time, "3 4".toList⟩) ∧
    TimestampParts (Text.strip timestamp) "2020-+2-\t3".toList
        ["2020".toList, "+2".toList, "\t3".toList] ["4".toList, "5_9".toList, "x".toList] ∧
      readTimestamp timestamp = .error ⟨Text.strip timestamp, "5_9".toList⟩ := by
  intro date time timestamp
  have dateParts : DateParts date ["2021".toList, [], "5".toList] :=
    @DateParts.day "2021".toList [] "5".toList (by decide) (by decide)
  have timeParts : TimeParts (time.suffixFrom 3) ["12".toList, "3 4".toList, "5".toList] [] :=
    @TimeParts.second "12".toList "3 4".toList "5".toList [] [] (by decide) (by decide) (by decide)
      (.inl ⟨rfl, rfl⟩)
  have parts : TimestampParts (Text.strip timestamp) "2020-+2-\t3".toList
      ["2020".toList, "+2".toList, "\t3".toList] ["4".toList, "5_9".toList, "x".toList] :=
    .time (by decide)
      (@DateParts.day "2020".toList "+2".toList "\t3".toList (by decide) (by decide))
      (@TimeParts.second "4".toList "5_9".toList "x".toList ".y".toList "y".toList (by decide)
        (by decide) (by decide) (.inr rfl))
  obtain ⟨dates, times, timestamps⟩ := readers_failAtFirst
  have month := ((dates date).2 _ dateParts).2 ⟨date, []⟩
  have minute := ((times time 3).2 _ _ timeParts).2 ⟨time, "3 4".toList⟩
  have minute' := ((timestamps timestamp).2 _ _ _ parts).2 ⟨Text.strip timestamp, "5_9".toList⟩
  have taken : errorsOf "2020-+2-\t3".toList ["2020".toList, "+2".toList, "\t3".toList] ++
      errorsOf (Text.strip timestamp) ["4".toList, "5_9".toList, "x".toList] =
      [⟨"2020-+2-\t3".toList, "2020".toList⟩, ⟨"2020-+2-\t3".toList, "+2".toList⟩,
        ⟨"2020-+2-\t3".toList, "\t3".toList⟩, ⟨Text.strip timestamp, "4".toList⟩] ++
      ⟨Text.strip timestamp, "5_9".toList⟩ :: [⟨Text.strip timestamp, "x".toList⟩] := rfl
  exact ⟨⟨dateParts, month.2 ⟨[⟨date, "2021".toList⟩], _, rfl, by decide, by decide⟩⟩,
    ⟨timeParts, minute.2 ⟨[⟨time, "12".toList⟩], _, rfl, by decide, by decide⟩⟩,
    parts, minute'.2 ⟨_, _, taken, by decide, by decide⟩⟩

end Almanac.Literal
