import Almanac.Proofs.DigitLimit
import Almanac.Proofs.PrecisionReading
import Almanac.Proofs.UtcInstant

/-! Fractions that carry a moment out of the years 1..9999. Behind a pattern's match the text may
go on with a point and digits, and their milliseconds are added to a moment that is in range; the
sum may not be. Main statement: once the pattern has matched, this is the only thing that keeps the
reading from an answer, and it cannot happen to a moment of whole seconds. -/

namespace Almanac.Text

theorem lt_length_of_suffixFrom {text rest : Text} {position : Int} {c : Char}
    (h : text.suffixFrom position = c :: rest) : position < text.length := by
  by_contra past
  have negative : ¬position < 0 := by omega
  rw [suffixFrom, if_neg negative, List.drop_of_length_le (by omega)] at h
  cases h

end Almanac.Text

namespace Almanac.DateTime

theorem utcMicros_ofUtc (utc : Reading) : (ofUtc utc).utcMicros = utc.micros := by
  rw [← instant_eq_utcMicros]
  exact Int.sub_zero utc.micros

end Almanac.DateTime

namespace Almanac.DatePattern

theorem read_of_readFrom {pattern : DatePattern} {text : Text} {position : Int} {zone : Zone}
    {match? : Option Match} (h : pattern.readFrom text position zone = .ok match?) :
    pattern.read text position zone = .ok match? := by
  unfold readFrom at h
  split at h
  · split at h
    · next taken =>
      cases h
      exact taken
    · cases h
  · cases h

theorem written?_of_absent {field : PatternField} {tokens : List PatternToken}
    (absent : ∀ width, .field field width ∉ tokens) (pieces : List Text) :
    written? tokens pieces field = none := by
  have noRuns : runsOf field tokens pieces = [] := by
    rw [runsOf, List.filterMap_eq_nil_iff]
    rintro ⟨token, piece⟩ member
    cases token with
    | literal c => rfl
    | field here width =>
      apply if_neg
      rintro rfl
      exact absent width (List.of_mem_zip member).1
  rw [written?, noRuns]
  rfl

namespace FieldValues

theorem second_dvd_micros {values : FieldValues} (h : values.milli = 0) :
    microsPerSecond ∣ values.micros := by
  rw [micros, h]
  simp only [Timestamp.ofFields, Timestamp.onDate, Timestamp.clockMillis, millisPerDay,
    millisPerHour, millisPerMinute, millisPerSecond, microsPerSecond]
  omega

end FieldValues

end Almanac.DatePattern

namespace Almanac.DateFormat
open DatePattern

theorem fractionMillis_lt {fraction : Text} (digits : ∀ c ∈ fraction, c.isDigit) :
    fractionMillis fraction < 1000 := by
  have padded : ∀ c ∈ (fraction.take 3).rightpad 3 '0', c.isDigit := by
    intro c member
    rcases List.mem_append.1 member with kept | filled
    · exact digits c (List.mem_of_mem_take kept)
    · rw [List.eq_of_mem_replicate filled]
      decide
  have bound := Numeral.ofDigitChars_lt padded
  have three : ((fraction.take 3).rightpad 3 '0').length = 3 := by
    rw [List.rightpad, List.length_append, List.length_replicate, List.length_take]
    omega
  rwa [three] at bound

theorem isDigit_of_mem_keptDigits {digits : Text} (allDigits : ∀ c ∈ digits, c.isDigit)
    (maxPrecision : Int) : ∀ c ∈ keptDigits digits maxPrecision, c.isDigit :=
  fun c member => allDigits c ((keptDigits_prefix_digits digits maxPrecision).subset member)

theorem withFraction_eq_error_iff {moment : DateTime} {fraction : Text} {fault : ReadFault} :
    withFraction moment fraction = .error fault ↔ fault = .outOfRange ∧
      ¬Reading.InYears (moment.reading.micros + fractionMillis fraction * 1000) := by
  rw [withFraction, Reading.add?]
  by_cases years : Reading.InYears (moment.reading.micros + fractionMillis fraction * 1000)
  · obtain ⟨reading, -, found⟩ := Reading.ofMicros?_of_inYears years
    simp only [found, years, reduceCtorEq, not_true_eq_false, and_false]
  · simp only [Reading.ofMicros?_of_not_inYears years, years, Except.error.injEq,
      not_false_eq_true, and_true, eq_comm]

section
variable {format : DateFormat} {text : Text} {zone : Zone} {moment : DateTime} {stop : Int}

theorem readPrecision_of_fraction
    (taken : format.read text zone = .ok (some ⟨.dateTime moment, stop⟩)) {digits : Text}
    (point : text.suffixFrom stop = '.' :: digits) (allDigits : ∀ c ∈ digits, c.isDigit)
    (maxPrecision : Int) :
    readPrecision format text zone maxPrecision =
      (withFraction moment (keptDigits digits maxPrecision)).map .found := by
  simp only [readPrecision, taken, point, if_pos (Text.lt_length_of_suffixFrom point),
    if_pos (List.all_eq_true.2 allDigits)]
  rfl

theorem readPrecision_of_no_fraction
    (taken : format.read text zone = .ok (some ⟨.dateTime moment, stop⟩))
    (noFraction : ∀ digits, text.suffixFrom stop = '.' :: digits → ¬∀ c ∈ digits, c.isDigit)
    (maxPrecision : Int) :
    ∃ outcome, readPrecision format text zone maxPrecision = .ok outcome := by
  simp only [readPrecision, taken]
  split
  · split
    · next digits point =>
      have other : ¬digits.all Char.isDigit := fun all =>
        noFraction digits point (List.all_eq_true.1 all)
      exact ⟨_, if_neg other⟩
    · exact ⟨_, rfl⟩
  · exact ⟨_, rfl⟩

end

/-- Behind the match there are a point and digits, and with the milliseconds of those digits that
are kept the moment leaves the years 1..9999. -/
def CarriedOut (text : Text) (found : Match) (maxPrecision : Int) : Prop :=
  ∃ digits, text.suffixFrom found.stop = '.' :: digits ∧ (∀ c ∈ digits, c.isDigit) ∧
    ¬Reading.InYears
      (found.value.utcMicros + fractionMillis (keptDigits digits maxPrecision) * 1000)

theorem toFormat_read_of_readFrom {pattern : DatePattern} {text : Text} {zone : Zone}
    {found : Match} (h : pattern.readFrom text 0 zone = .ok (some found)) :
    pattern.toFormat.read text zone = .ok (some ⟨.dateTime found.value, found.stop⟩) :=
  toFormat_read_eq_some_iff.2 ⟨found.value, rfl, read_of_readFrom h⟩

section
variable {pattern : DatePattern} {text : Text} {offset : Int} {found : Match}

theorem utcMicros_of_readFrom (separate : Separate pattern.tokens)
    (matched : pattern.readFrom text 0 (.fixed offset) = .ok (some found)) :
    found.value.utcMicros = found.value.reading.micros := by
  -- a match in a fixed zone is shown in UTC, where clock and instant are one number
  obtain ⟨-, -, -, -, utc, -, rfl⟩ :=
    exists_of_read separate (Nat.zero_le _) (read_of_readFrom matched)
  exact DateTime.utcMicros_ofUtc utc

theorem carriedOut_iff {digits : Text} (point : text.suffixFrom found.stop = '.' :: digits)
    (allDigits : ∀ c ∈ digits, c.isDigit) (maxPrecision : Int) :
    CarriedOut text found maxPrecision ↔ ¬Reading.InYears
      (found.value.utcMicros + fractionMillis (keptDigits digits maxPrecision) * 1000) := by
  constructor
  · rintro ⟨_, point', -, outside⟩
    cases point.symm.trans point'
    exact outside
  · intro outside
    exact ⟨digits, point, allDigits, outside⟩

theorem readPrecision_eq_error_iff_carriedOut (separate : Separate pattern.tokens)
    (matched : pattern.readFrom text 0 (.fixed offset) = .ok (some found)) (maxPrecision : Int)
    (fault : ReadFault) :
    readPrecision pattern.toFormat text (.fixed offset) maxPrecision = .error fault ↔
      fault = .outOfRange ∧ CarriedOut text found maxPrecision := by
  have taken := toFormat_read_of_readFrom matched
  by_cases fraction :
      ∃ digits, text.suffixFrom found.stop = '.' :: digits ∧ ∀ c ∈ digits, c.isDigit
  · obtain ⟨digits, point, allDigits⟩ := fraction
    rw [readPrecision_of_fraction taken point allDigits, carriedOut_iff point allDigits,
      utcMicros_of_readFrom separate matched, ← withFraction_eq_error_iff]
    cases withFraction found.value (keptDigits digits maxPrecision) <;> simp [Except.map]
  · obtain ⟨outcome, answered⟩ := readPrecision_of_no_fraction taken
      (fun digits point allDigits => fraction ⟨digits, point, allDigits⟩) maxPrecision
    rw [answered]
    constructor
    · rintro ⟨⟩
    · rintro ⟨-, digits, point, allDigits, -⟩
      exact absurd ⟨digits, point, allDigits⟩ fraction

theorem not_carriedOut_of_whole_second (separate : Separate pattern.tokens)
    (matched : pattern.readFrom text 0 (.fixed offset) = .ok (some found))
    (noMillis : ∀ width, .field .milli width ∉ pattern.tokens)
    (wholeSeconds : microsPerSecond ∣ offset) (maxPrecision : Int) :
    ¬CarriedOut text found maxPrecision := by
  rintro ⟨digits, -, allDigits, outside⟩
  obtain ⟨pieces, -, -, -, utc, count, rfl⟩ :=
    exists_of_read separate (Nat.zero_le _) (read_of_readFrom matched)
  have noMilli : (writtenValues pattern.tokens pieces).get .milli = 0 := by
    rw [FieldValues.get_writtenValues, written?_of_absent noMillis]
    rfl
  -- the value written and the offset are whole seconds, so the moment is at most 23:59:59.000
  have whole := FieldValues.second_dvd_micros noMilli
  have low := utc.first_le
  have high := utc.le_last
  have few := fractionMillis_lt (isDigit_of_mem_keptDigits allDigits maxPrecision)
  rw [DateTime.utcMicros_ofUtc, Reading.inYears_iff] at outside
  simp only [microsPerSecond] at *
  omega

end

/-- Once a pattern has matched, the reading of a fraction behind it ends without an answer if and
only if the fraction carries the moment out of the years 1..9999. A pattern without milliseconds,
in a zone of whole seconds, always comes to an answer. -/
theorem readPrecision_eq_error_iff {source : Text} {pattern : DatePattern}
    (accepted : ofText source = .ok pattern) {text : Text} {offset : Int} {found : Match}
    (matched : pattern.readFrom text 0 (.fixed offset) = .ok (some found)) (maxPrecision : Int) :
    (∀ fault, readPrecision pattern.toFormat text (.fixed offset) maxPrecision = .error fault ↔
      fault = .outOfRange ∧ CarriedOut text found maxPrecision) ∧
    ((∀ width, .field .milli width ∉ pattern.tokens) → microsPerSecond ∣ offset →
      ¬CarriedOut text found maxPrecision) := by
  have separate := separate_of_ofText accepted
  constructor
  · exact readPrecision_eq_error_iff_carriedOut separate matched maxPrecision
  · intro noMillis wholeSeconds
    exact not_carriedOut_of_whole_second separate matched noMillis wholeSeconds maxPrecision

theorem readPrecision_eq_error_iff_last_millisecond :
    let pattern : DatePattern :=
      ⟨timestamp ++ ".SSS".toList, timestampTokens ++ [.literal '.', .field .milli 3]⟩
    let seconds : DatePattern := ⟨timestamp, timestampTokens⟩
    let text : Text := "9999-12-31 23:59:59.999.001".toList
    let last : Match := ⟨.ofUtc ⟨253402300799999000, by decide, by decide⟩, 23⟩
    let lastSecond : Match := ⟨.ofUtc ⟨253402300799000000, by decide, by decide⟩, 19⟩
    ofText (timestamp ++ ".SSS".toList) = .ok pattern ∧
      pattern.readFrom text 0 (.fixed 0) = .ok (some last) ∧
      readPrecision pattern.toFormat text (.fixed 0) 3 = .error .outOfRange ∧
      ofText timestamp = .ok seconds ∧
      seconds.readFrom (text.take 23) 0 (.fixed 0) = .ok (some lastSecond) ∧
      ¬CarriedOut (text.take 23) lastSecond 3 := by
  intro pattern seconds text last lastSecond
  have accepted : ofText (timestamp ++ ".SSS".toList) = .ok pattern := rfl
  have matched : pattern.readFrom text 0 (.fixed 0) = .ok (some last) := by decide +kernel
  have matched' : seconds.readFrom (text.take 23) 0 (.fixed 0) = .ok (some lastSecond) := by
    decide +kernel
  have point : text.suffixFrom last.stop = '.' :: "001".toList := by decide +kernel
  have outside : ¬Reading.InYears
      (last.value.utcMicros + fractionMillis (keptDigits "001".toList 3) * 1000) := by
    rw [Reading.inYears_iff]
    decide +kernel
  have digits : ∀ c ∈ "001".toList, c.isDigit := List.all_eq_true.1 (by decide)
  have carried : CarriedOut text last 3 := (carriedOut_iff point digits 3).2 outside
  have noMillis : ∀ width, .field .milli width ∉ timestampTokens := by
    intro width member
    simp [timestampTokens] at member
  have failed := ((readPrecision_eq_error_iff accepted matched 3).1 .outOfRange).2 ⟨rfl, carried⟩
  have kept := (readPrecision_eq_error_iff ofText_timestamp matched' 3).2 noMillis (by decide)
  exact ⟨accepted, matched, failed, ofText_timestamp, matched', kept⟩

end Almanac.DateFormat
