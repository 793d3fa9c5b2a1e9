import Mathlib
import Almanac.Proofs.FractionDigits

/-! Written dates, times and timestamps, read again. The reader cuts a text at its first
separators. No padded number holds one of them, save that the minus of a year before the year 0 is
the first hyphen of its date: such a date has an empty first component, and is refused. Main
statements: a date of any other year is read back, and a time, of a day or of any other number of
milliseconds, or a timestamp is read back as far as its precision goes. -/

namespace Almanac.Text

theorem strip_words {first second : Text} (separator : Char) (nonempty : first ≠ [])
    (nonempty' : second ≠ []) (clean : ∀ c ∈ first, isBlank c = false)
    (clean' : ∀ c ∈ second, isBlank c = false) :
    strip (first ++ separator :: second) = first ++ separator :: second := by
  apply strip_eq_self_of_ends
  · intro c member
    rw [List.head?_append_of_ne_nil _ nonempty] at member
    exact clean c (List.mem_of_mem_head? member)
  · intro c member
    rw [List.getLast?_append_of_ne_nil _ (List.cons_ne_nil _ _),
      List.getLast?_cons_of_ne_nil nonempty'] at member
    exact clean' c (List.mem_of_mem_getLast? member)

theorem isBlank_of_mem_joined {separator : Char} {first second third : Text}
    (visible : isBlank separator = false) (clean : ∀ c ∈ first, isBlank c = false)
    (clean' : ∀ c ∈ second, isBlank c = false) (clean'' : ∀ c ∈ third, isBlank c = false) :
    ∀ c ∈ first ++ separator :: second ++ separator :: third, isBlank c = false := by
  simp only [List.forall_mem_append, List.forall_mem_cons]
  exact ⟨⟨clean, visible, clean'⟩, visible, clean''⟩

end Almanac.Text

namespace Almanac.Literal
open Numeral

theorem readComponents_cons {literal component : Text} {rest : List Text} {value : Int}
    {values : List Int} (first : readInt? component = some value)
    (others : readComponents literal rest = .ok values) :
    readComponents literal (component :: rest) = .ok (value :: values) := by
  simp only [readComponents, readComponent, first, others]
  rfl

theorem isBlank_of_mem_writeCalendarDate (date : CalendarDate) :
    ∀ c ∈ writeCalendarDate date, Text.isBlank c = false :=
  Text.isBlank_of_mem_joined (by decide) (fun c => isBlank_of_mem_zeroPadded)
    (fun c => isBlank_of_mem_zeroPadded) fun c => isBlank_of_mem_zeroPadded

theorem readDate_of_components {year month day : Text} {y m d : Int} (noHyphen : '-' ∉ year)
    (noHyphen' : '-' ∉ month) (year' : readInt? year = some y) (month' : readInt? month = some m)
    (day' : readInt? day = some d) :
    readDate (year ++ '-' :: month ++ '-' :: day) = .ok (CalendarDate.toUnix ⟨y, m, d⟩) := by
  rw [readDate, dateComponents, Text.pieces_three day noHyphen noHyphen',
    readComponents_cons year' (readComponents_cons month' (readComponents_cons day' rfl))]
  rfl

theorem dateComponents_of_neg {date : CalendarDate} (h : date.year < 0) :
    ∃ others, dateComponents (writeCalendarDate date) = [] :: others := by
  -- the minus sign is taken for the hyphen that ends the year
  rw [dateComponents, writeCalendarDate, zeroPadded_of_neg 4 h, List.append_assoc,
    List.cons_append]
  exact ⟨_, Text.pieces_append 1 _ List.not_mem_nil⟩

theorem readInt?_twoDigits {n : Int} (low : 0 ≤ n) (high : n < 100) :
    readInt? (zeroPadded 2 n) = some n := by
  have count : digitCount n ≤ 2 := digitCount_le (by omega) (by decide)
  exact readInt?_zeroPadded (by decide) (count.trans (by decide))

theorem readDate_writeCalendarDate {date : CalendarDate} (valid : date.Valid)
    (short : digitCount date.year ≤ maxDigits) :
    readDate (writeCalendarDate date) =
      if 0 ≤ date.year then .ok date.toUnix else .error ⟨writeCalendarDate date, []⟩ := by
  split
  · next nonneg =>
    have longest := daysInMonth_bounds date.year date.month
    obtain ⟨low, high, first, last⟩ := valid
    have noHyphen : ∀ {width : Nat} {n : Int}, 0 ≤ n → '-' ∉ zeroPadded width n := fun nonneg =>
      not_mem_zeroPadded (by decide) (.inl nonneg)
    have year : readInt? (zeroPadded 4 date.year) = some date.year :=
      readInt?_zeroPadded (by decide) short
    have month := readInt?_twoDigits (show 0 ≤ date.month by omega) (by omega)
    have day := readInt?_twoDigits (show 0 ≤ date.day by omega) (by omega)
    exact readDate_of_components (noHyphen nonneg) (noHyphen (by omega)) year month day
  · next negative =>
    obtain ⟨others, components⟩ := dateComponents_of_neg (Int.not_le.1 negative)
    have refused : readComponents (writeCalendarDate date) ([] :: others) =
        .error ⟨writeCalendarDate date, []⟩ :=
      readComponents_eq_error_iff.2 ⟨[], [], others, rfl, by simp, rfl, rfl⟩
    rw [readDate, components, refused]
    rfl

theorem readDate_writeDate {unixDate : Int}
    (short : digitCount (CalendarDate.ofUnix unixDate).year ≤ maxDigits) :
    readDate (writeDate unixDate) =
      if 0 ≤ (CalendarDate.ofUnix unixDate).year then .ok unixDate
      else .error ⟨writeDate unixDate, []⟩ := by
  rw [writeDate, readDate_writeCalendarDate (CalendarDate.valid_ofUnix unixDate) short,
    CalendarDate.toUnix_ofUnix]

theorem ClockParts.bounds_ofTime (time : Int) :
    (0 ≤ (ofTime time).minute ∧ (ofTime time).minute < 60) ∧
      (0 ≤ (ofTime time).second ∧ (ofTime time).second < 60) ∧
      0 ≤ (ofTime time).millis ∧ (ofTime time).millis < 1000 := by
  simp only [ofTime, millisPerHour, millisPerMinute, millisPerSecond]
  omega

def writtenFraction (millis precision : Int) : Text :=
  if 0 < precision then fractionText millis precision.toNat else []

theorem isBlank_of_mem_writtenFraction {millis : Int} (low : 0 ≤ millis) (precision : Int) :
    ∀ c ∈ writtenFraction millis precision, Text.isBlank c = false := by
  intro c member
  unfold writtenFraction at member
  split at member
  · exact isBlank_of_isDigit (isDigit_of_mem_fractionText low member)
  · cases member

def Behind (rest fraction : Text) : Prop :=
  rest = [] ∧ fraction = [] ∨ rest = '.' :: fraction

theorem isBlank_of_mem_behind {rest fraction : Text} (behind : Behind rest fraction)
    (clean : ∀ c ∈ fraction, Text.isBlank c = false) : ∀ c ∈ rest, Text.isBlank c = false := by
  rcases behind with ⟨rfl, -⟩ | rfl
  · exact List.forall_mem_nil _
  · exact List.forall_mem_cons.2 ⟨by decide, clean⟩

theorem behind_writtenFraction (millis precision : Int) :
    Behind (if 0 < precision then '.' :: fractionText millis precision.toNat else [])
      (writtenFraction millis precision) := by
  unfold Behind writtenFraction
  split
  · exact .inr rfl
  · exact .inl ⟨rfl, rfl⟩

section
variable {hour minute second rest fraction : Text}

theorem timeComponents_of_cuts (noColon : ':' ∉ hour) (noColon' : ':' ∉ minute)
    (noPoint : '.' ∉ second) (behind : Behind rest fraction) :
    timeComponents (hour ++ ':' :: minute ++ ':' :: (second ++ rest)) =
      ([hour, minute, second], fraction) := by
  rw [timeComponents, Text.pieces_three (second ++ rest) noColon noColon']
  simp only
  rcases behind with ⟨rfl, rfl⟩ | rfl
  · rw [List.append_nil, Text.cutAt?_eq_none_iff.2 noPoint]
  · rw [Text.cutAt?_append _ noPoint]

theorem readTimeOf_of_components (literal : Text) {h m s : Int} (noColon : ':' ∉ hour)
    (noColon' : ':' ∉ minute) (noPoint : '.' ∉ second) (behind : Behind rest fraction)
    (hour' : readInt? hour = some h) (minute' : readInt? minute = some m)
    (second' : readInt? second = some s) :
    readTimeOf literal (hour ++ ':' :: minute ++ ':' :: (second ++ rest)) =
      .ok (Timestamp.clockMillis h m s + readFraction 2 (Text.strip fraction)) := by
  rw [readTimeOf, timeComponents_of_cuts noColon noColon' noPoint behind]
  simp only
  rw [readComponents_cons hour' (readComponents_cons minute' (readComponents_cons second' rfl))]
  rfl

end

/-- The milliseconds that the last digit of a precision stands for. -/
def lastDigitUnit (precision : Int) : Int := 10 ^ (3 - min (max precision 0) 3).toNat

theorem readFraction_writtenFraction {millis : Int} (low : 0 ≤ millis) (high : millis < 1000)
    (precision : Int) :
    (readFraction 2 (Text.strip (writtenFraction millis precision)) : Int) =
      millis - millis % lastDigitUnit precision := by
  rw [Text.strip_eq_self (isBlank_of_mem_writtenFraction low precision)]
  unfold writtenFraction lastDigitUnit
  split
  · next positive =>
    have exponent : (3 - min (max precision 0) 3).toNat = 3 - precision.toNat := by omega
    rw [readFraction_fractionText low high, exponent]
  · next absent =>
    have exponent : (3 - min (max precision 0) 3).toNat = 3 := by omega
    rw [exponent, Int.emod_eq_of_lt low (by omega)]
    exact (sub_self millis).symm

theorem lastDigitUnit_dvd_second (precision : Int) : lastDigitUnit precision ∣ 1000 := by
  have cube : (1000 : Int) = 10 ^ 3 := by norm_num
  rw [cube]
  exact pow_dvd_pow 10 (by omega)

theorem clockMillis_add_kept (time precision : Int) :
    Timestamp.clockMillis (ClockParts.ofTime time).hour (ClockParts.ofTime time).minute
        (ClockParts.ofTime time).second +
      ((ClockParts.ofTime time).millis -
        (ClockParts.ofTime time).millis % lastDigitUnit precision) =
      time - time % lastDigitUnit precision := by
  have sum := ClockParts.sum_ofTime time
  -- every unit divides a second, so that hours, minutes and seconds lose nothing
  have whole : lastDigitUnit precision ∣ time - (ClockParts.ofTime time).millis := by
    apply (lastDigitUnit_dvd_second precision).trans
    simp only [ClockParts.ofTime, millisPerHour, millisPerMinute, millisPerSecond]
    omega
  have rest : (ClockParts.ofTime time).millis % lastDigitUnit precision =
      time % lastDigitUnit precision := Int.modEq_iff_dvd.2 whole
  omega

theorem readTimeOf_writeTime (literal : Text) {time : Int} (precision : Int)
    (short : digitCount (ClockParts.ofTime time).hour ≤ maxDigits) :
    readTimeOf literal (writeTime time precision) =
      .ok (time - time % lastDigitUnit precision) := by
  obtain ⟨⟨minuteLow, minuteHigh⟩, ⟨secondLow, secondHigh⟩, low, high⟩ :=
    ClockParts.bounds_ofTime time
  have hour := readInt?_zeroPadded (show 2 ≤ maxDigits by decide) short
  have minute := readInt?_twoDigits minuteLow (by omega)
  have second := readInt?_twoDigits secondLow (by omega)
  have noColon : ∀ {n : Int}, ':' ∉ zeroPadded 2 n :=
    not_mem_zeroPadded (by decide) (.inr (by decide))
  have noPoint : ∀ {n : Int}, '.' ∉ zeroPadded 2 n :=
    not_mem_zeroPadded (by decide) (.inr (by decide))
  have kept := clockMillis_add_kept time precision
  rw [← readFraction_writtenFraction low high] at kept
  rw [← kept, writeTime, List.append_assoc, List.cons_append]
  exact readTimeOf_of_components literal noColon noColon noPoint
    (behind_writtenFraction _ precision) hour minute second

theorem isBlank_of_mem_writeTime (time precision : Int) :
    ∀ c ∈ writeTime time precision, Text.isBlank c = false := by
  obtain ⟨-, -, low, -⟩ := ClockParts.bounds_ofTime time
  have clean := isBlank_of_mem_behind (behind_writtenFraction _ precision)
    (isBlank_of_mem_writtenFraction low precision)
  rw [writeTime, List.append_assoc, List.cons_append]
  exact Text.isBlank_of_mem_joined (by decide) (fun c => isBlank_of_mem_zeroPadded)
    (fun c => isBlank_of_mem_zeroPadded)
    (List.forall_mem_append.2 ⟨fun c => isBlank_of_mem_zeroPadded, clean⟩)

theorem strip_writeTimestamp (timestamp precision : Int) :
    Text.strip (writeTimestamp timestamp precision) = writeTimestamp timestamp precision := by
  have dated : writeDate (Timestamp.date timestamp) ≠ [] := by
    simp [writeDate, writeCalendarDate]
  have timed : writeTime (Timestamp.time timestamp) precision ≠ [] := by
    simp [writeTime]
  exact Text.strip_words ' ' dated timed (isBlank_of_mem_writeCalendarDate _)
    (isBlank_of_mem_writeTime _ precision)

theorem digitCount_hour_of_inDay {time : Int} (h : Timestamp.InDay time) :
    digitCount (ClockParts.ofTime time).hour ≤ maxDigits := by
  have count : digitCount (ClockParts.ofTime time).hour ≤ 2 := by
    apply digitCount_le _ (by decide)
    simp only [Timestamp.InDay, ClockParts.ofTime, millisPerDay, millisPerHour] at *
    omega
  exact count.trans (by decide)

theorem onDate_time_sub_emod (timestamp precision : Int) :
    Timestamp.onDate (Timestamp.date timestamp)
        (Timestamp.time timestamp - Timestamp.time timestamp % lastDigitUnit precision) =
      timestamp - timestamp % lastDigitUnit precision := by
  have parts := Timestamp.onDate_date_time timestamp
  have unit : lastDigitUnit precision ∣ 86400000 := by
    apply (lastDigitUnit_dvd_second precision).trans
    norm_num
  have rest : Timestamp.time timestamp % lastDigitUnit precision =
      timestamp % lastDigitUnit precision := Int.emod_emod_of_dvd timestamp unit
  rw [rest]
  simp only [Timestamp.onDate, millisPerDay] at *
  omega

theorem readTimestamp_writeTimestamp {timestamp : Int} (precision : Int)
    (short : digitCount (CalendarDate.ofUnix (Timestamp.date timestamp)).year ≤ maxDigits) :
    readTimestamp (writeTimestamp timestamp precision) =
      if 0 ≤ (CalendarDate.ofUnix (Timestamp.date timestamp)).year then
        .ok (timestamp - timestamp % lastDigitUnit precision)
      else .error ⟨writeDate (Timestamp.date timestamp), []⟩ := by
  have noSpace : ' ' ∉ writeDate (Timestamp.date timestamp) := by
    intro member
    have blank := isBlank_of_mem_writeCalendarDate _ ' ' member
    revert blank
    decide
  have time := readTimeOf_writeTime (writeTimestamp timestamp precision) precision
    (digitCount_hour_of_inDay (Timestamp.inDay_time timestamp))
  simp only [readTimestamp, strip_writeTimestamp]
  rw [writeTimestamp, Text.cutAt?_append _ noSpace, ← writeTimestamp]
  simp only [readDate_writeDate short, time]
  split
  · exact congrArg Except.ok (onDate_time_sub_emod timestamp precision)
  · rfl

/-- Dates and timestamps whose year has few enough digits for a number are read back from their
text, timestamps down to the last digit of the precision, if the year is not negative. If it is,
the text is refused for its first component, which is empty. -/
theorem written_text_reads_back :
    (∀ unixDate : Int, digitCount (CalendarDate.ofUnix unixDate).year ≤ 4300 →
      readDate (writeDate unixDate) =
        if 0 ≤ (CalendarDate.ofUnix unixDate).year then .ok unixDate
        else .error ⟨writeDate unixDate, []⟩) ∧
    ∀ timestamp precision : Int,
      digitCount (CalendarDate.ofUnix (Timestamp.date timestamp)).year ≤ 4300 →
      readTimestamp (writeTimestamp timestamp precision) =
        if 0 ≤ (CalendarDate.ofUnix (Timestamp.date timestamp)).year then
          .ok (timestamp - timestamp % 10 ^ (3 - min (max precision 0) 3).toNat)
        else .error ⟨writeDate (Timestamp.date timestamp), []⟩ := by
  constructor
  · intro unixDate short
    exact readDate_writeDate short
  · intro timestamp precision short
    exact readTimestamp_writeTimestamp precision short

theorem written_text_reads_back_before_epoch :
    (digitCount (CalendarDate.ofUnix (Timestamp.date (-1))).year ≤ 4300 ∧
      readTimestamp (writeTimestamp (-1) 2) = .ok (-10)) ∧
    digitCount (CalendarDate.ofUnix (-719529)).year ≤ 4300 ∧
      readDate (writeDate (-719529)) = .error ⟨"-001-12-31".toList, []⟩ := by
  have before : digitCount (CalendarDate.ofUnix (Timestamp.date (-1))).year ≤ 4300 := by decide
  have negative : digitCount (CalendarDate.ofUnix (-719529)).year ≤ 4300 := by decide
  refine ⟨⟨before, ?_⟩, negative, ?_⟩
  · rw [written_text_reads_back.2 (-1) 2 before]
    decide
  · rw [written_text_reads_back.1 (-719529) negative]
    decide

/-- Any number of milliseconds is read back as a time, down to the last digit of the precision, if
its hours have few enough digits for a number. It may be negative or longer than a day: the hours
alone take the sign and what leaves the clock. -/
theorem readTime_writeTime (time precision : Int) (short : digitCount (time / 3600000) ≤ 4300) :
    readTime (writeTime time precision) 0 =
      .ok (time - time % 10 ^ (3 - min (max precision 0) 3).toNat) := by
  rw [readTime, Text.suffixFrom_zero]
  exact readTimeOf_writeTime _ precision short

theorem readTime_writeTime_outside_day :
    (digitCount (-1 / 3600000) ≤ 4300 ∧ writeTime (-1) 2 = "-1:59:59.99".toList ∧
      readTime "-1:59:59.99".toList 0 = .ok (-10)) ∧
    digitCount (108000001 / 3600000) ≤ 4300 ∧ writeTime 108000001 5 = "30:00:00.00100".toList ∧
      readTime "30:00:00.00100".toList 0 = .ok 108000001 := by
  have before : digitCount (-1 / 3600000) ≤ 4300 := by decide
  have behind : digitCount (108000001 / 3600000) ≤ 4300 := by decide
  have text : writeTime (-1) 2 = "-1:59:59.99".toList := by decide
  have text' : writeTime 108000001 5 = "30:00:00.00100".toList := by decide
  refine ⟨⟨before, text, ?_⟩, behind, text', ?_⟩
  · rw [← text, readTime_writeTime (-1) 2 before]
    decide
  · rw [← text', readTime_writeTime 108000001 5 behind]
    decide

end Almanac.Literal
