import Almanac.Proofs.FractionOverflow

/-! Fractions kept behind a match, whatever the format that found it. The digits behind a point
stand for a number below 1, and the milliseconds added to the moment found are the whole ones of
that number: three digits decide them, and where digits are cut off they do not become more. Main
statement: a text is read if and only if nothing follows the match, or a point and digits, and what
is read has the moment's zone, as many digits as it may keep, and the timestamp of the moment with
the milliseconds of those digits added. -/

namespace Almanac.DateFormat
open Numeral

def wholeMillis (fraction : Text) : Int := ⌊1000 * fractionValue fraction⌋

theorem wholeMillis_eq_fractionMillis {fraction : Text} (digits : ∀ c ∈ fraction, c.isDigit) :
    wholeMillis fraction = fractionMillis fraction := by
  have thousand : (1000 : ℚ) = 10 ^ 3 := by norm_num
  rw [wholeMillis, thousand]
  exact floor_mul_fractionValue digits 3

theorem wholeMillis_bounds {fraction : Text} (digits : ∀ c ∈ fraction, c.isDigit) :
    0 ≤ wholeMillis fraction ∧ wholeMillis fraction ≤ 999 := by
  have few := fractionMillis_lt digits
  rw [wholeMillis_eq_fractionMillis digits]
  omega

theorem wholeMillis_take_three {fraction : Text} (digits : ∀ c ∈ fraction, c.isDigit) :
    wholeMillis (fraction.take 3) = wholeMillis fraction := by
  rw [wholeMillis_eq_fractionMillis digits,
    wholeMillis_eq_fractionMillis fun c member => digits c (List.mem_of_mem_take member),
    fractionMillis, List.take_take, min_self, fractionMillis]

theorem wholeMillis_mono {first second : Text} (h : first <+: second) :
    wholeMillis first ≤ wholeMillis second := by
  have less := fractionValue_mono h
  exact Int.floor_le_floor (by linarith)

theorem length_keptDigits (digits : Text) (maxPrecision : Int) :
    ((keptDigits digits maxPrecision).length : Int) =
      if maxPrecision < 0 then (digits.length : Int) else min maxPrecision digits.length := by
  unfold keptDigits
  split
  · rw [List.length_take, if_neg (by omega)]
    omega
  · rw [if_pos (by omega)]

/-- Behind the match there is nothing, or a point and digits. -/
def FractionBehind (text : Text) (stop : Int) (digits : Text) : Prop :=
  ((text.length : Int) ≤ stop ∧ digits = [] ∨ text.suffixFrom stop = '.' :: digits) ∧
    ∀ c ∈ digits, c.isDigit

/-- A date-time with a fraction as it comes from a moment and the digits behind it. -/
structure Extends (time : PrecisionTime) (moment : DateTime) (digits : Text)
    (maxPrecision : Int) : Prop where
  fraction : time.fraction <+: digits
  length : (time.fraction.length : Int) =
    if maxPrecision < 0 then (digits.length : Int) else min maxPrecision digits.length
  precision : time.precision = time.fraction.length
  zone : time.value.zone? = moment.zone?
  reading : time.value.reading.micros =
    moment.reading.micros + wholeMillis time.fraction * 1000
  /-- The moment's own milliseconds are rounded down, before the epoch too. -/
  timestamp : ∀ offset, moment.zone? = some (.fixed offset) →
    time.toUnixTimestamp? = some (moment.utcMicros / 1000 + wholeMillis time.fraction)
  millis_bounds : 0 ≤ wholeMillis time.fraction ∧ wholeMillis time.fraction ≤ 999
  millis_of_three : wholeMillis time.fraction = wholeMillis (time.fraction.take 3)

theorem Extends.prefix_of_le {time time' : PrecisionTime} {moment : DateTime} {digits : Text}
    {fewer more : Int} (h : Extends time moment digits fewer)
    (h' : Extends time' moment digits more) (limited : 0 ≤ fewer) (le : fewer ≤ more) :
    time.fraction <+: time'.fraction := by
  have length := h.length
  have length' := h'.length
  rw [if_neg (by omega)] at length length'
  exact List.prefix_of_prefix_length_le h.fraction h'.fraction (by omega)

theorem withFraction_nil (moment : DateTime) : withFraction moment [] = .ok ⟨moment, [], 0⟩ := by
  have noMillis : ((fractionMillis [] : Nat) : Int) * 1000 = 0 := rfl
  rw [withFraction, Reading.add?, noMillis, Int.add_zero, Reading.ofMicros?_micros]
  rfl

theorem exists_withFraction {moment : DateTime} {fraction : Text}
    (digits : ∀ c ∈ fraction, c.isDigit)
    (years : Reading.InYears (moment.reading.micros + wholeMillis fraction * 1000)) :
    ∃ time, withFraction moment fraction = .ok time := by
  rw [wholeMillis_eq_fractionMillis digits] at years
  obtain ⟨reading, -, found⟩ := Reading.ofMicros?_of_inYears years
  rw [withFraction, Reading.add?, found]
  exact ⟨_, rfl⟩

theorem toUnixTimestamp?_of_added {time : PrecisionTime} {moment : DateTime} {offset millis : Int}
    (fixed : moment.zone? = some (.fixed offset)) (zone : time.value.zone? = moment.zone?)
    (reading : time.value.reading.micros = moment.reading.micros + millis * 1000) :
    time.toUnixTimestamp? = some (moment.utcMicros / 1000 + millis) := by
  have given := DateTime.offset?_of_fixed fixed
  have taken := DateTime.offset?_of_fixed (zone.trans fixed)
  rw [PrecisionTime.toUnixTimestamp?, ← DateTime.instant_eq_utcMicros, DateTime.instant,
    DateTime.instant, given, taken, reading, Option.map_some, Option.some_inj]
  simp only [Option.getD_some]
  omega

theorem extends_of_withFraction {moment : DateTime} {digits : Text} {maxPrecision : Int}
    {time : PrecisionTime} (allDigits : ∀ c ∈ digits, c.isDigit)
    (h : withFraction moment (keptDigits digits maxPrecision) = .ok time) :
    Extends time moment digits maxPrecision := by
  have kept := isDigit_of_mem_keptDigits allDigits maxPrecision
  obtain ⟨fraction, precision⟩ := precision_of_withFraction h
  obtain ⟨zone, reading⟩ := value_of_withFraction h
  rw [← wholeMillis_eq_fractionMillis kept] at reading
  rw [← fraction] at kept precision reading
  exact
    { fraction := fraction ▸ keptDigits_prefix_digits digits maxPrecision
      length := fraction ▸ length_keptDigits digits maxPrecision
      precision, zone, reading
      timestamp := fun _ fixed => toUnixTimestamp?_of_added fixed zone reading
      millis_bounds := wholeMillis_bounds kept
      millis_of_three := (wholeMillis_take_three kept).symm }

section
variable {format : DateFormat} {text : Text} {zone : Zone} {moment : DateTime} {stop : Int}
  (matched : format.read text zone = .ok (some ⟨.dateTime moment, stop⟩))
include matched

theorem readPrecision_of_fractionBehind {digits : Text} (behind : FractionBehind text stop digits)
    (maxPrecision : Int) :
    readPrecision format text zone maxPrecision =
      (withFraction moment (keptDigits digits maxPrecision)).map .found := by
  obtain ⟨⟨past, rfl⟩ | point, allDigits⟩ := behind
  · rw [keptDigits_nil, withFraction_nil]
    simp only [readPrecision, matched, if_neg (not_lt.2 past)]
    rfl
  · exact readPrecision_of_fraction matched point allDigits maxPrecision

theorem extends_of_found {digits : Text} (behind : FractionBehind text stop digits)
    {maxPrecision : Int} {time : PrecisionTime}
    (found : readPrecision format text zone maxPrecision = .ok (.found time)) :
    Extends time moment digits maxPrecision := by
  rw [readPrecision_of_fractionBehind matched behind] at found
  cases sum : withFraction moment (keptDigits digits maxPrecision) with
  | error fault =>
    rw [sum] at found
    cases found
  | ok added =>
    rw [sum] at found
    cases found
    exact extends_of_withFraction behind.2 sum

theorem exists_fractionBehind_of_found {maxPrecision : Int} {time : PrecisionTime}
    (found : readPrecision format text zone maxPrecision = .ok (.found time)) :
    ∃ digits, FractionBehind text stop digits := by
  obtain ⟨moment', stop', taken, ending⟩ := exists_of_readPrecision found
  cases matched.symm.trans taken
  rcases ending with ⟨past, -⟩ | ⟨digits, point, allDigits, -⟩
  · exact ⟨[], .inl ⟨past, rfl⟩, List.forall_mem_nil _⟩
  · exact ⟨digits, .inr point, allDigits⟩

theorem exists_found_of_inYears {digits : Text} (behind : FractionBehind text stop digits)
    {maxPrecision : Int} (years : Reading.InYears
      (moment.reading.micros + wholeMillis (keptDigits digits maxPrecision) * 1000)) :
    ∃ time, readPrecision format text zone maxPrecision = .ok (.found time) := by
  obtain ⟨time, sum⟩ := exists_withFraction (isDigit_of_mem_keptDigits behind.2 maxPrecision) years
  rw [readPrecision_of_fractionBehind matched behind, sum]
  exact ⟨time, rfl⟩

theorem wholeMillis_le_of_found {fewer more : Int} (limited : 0 ≤ fewer) (le : fewer ≤ more)
    {time time' : PrecisionTime}
    (found : readPrecision format text zone fewer = .ok (.found time))
    (found' : readPrecision format text zone more = .ok (.found time')) :
    wholeMillis time.fraction ≤ wholeMillis time'.fraction := by
  obtain ⟨digits, behind⟩ := exists_fractionBehind_of_found matched found
  have few := extends_of_found matched behind found
  have many := extends_of_found matched behind found'
  exact wholeMillis_mono (few.prefix_of_le many limited le)

end

/-- After a match, a text is read with a fraction if and only if nothing follows or a point and
digits, as long as the fraction does not carry the moment out of the years 1..9999; what is read is
the moment with the digits kept, and more digits kept never make fewer milliseconds. -/
theorem found_iff_fractionBehind_and_extends {format : DateFormat} {text : Text} {zone : Zone}
    {moment : DateTime} {stop : Int}
    (matched : format.read text zone = .ok (some ⟨.dateTime moment, stop⟩)) :
    (∀ maxPrecision,
      (∀ digits, FractionBehind text stop digits → Reading.InYears
        (moment.reading.micros + wholeMillis (keptDigits digits maxPrecision) * 1000)) →
      (∃ outcome, readPrecision format text zone maxPrecision = .ok outcome) ∧
        ((∃ time, readPrecision format text zone maxPrecision = .ok (.found time)) ↔
          ∃ digits, FractionBehind text stop digits)) ∧
    (∀ maxPrecision time, readPrecision format text zone maxPrecision = .ok (.found time) →
      ∀ digits, FractionBehind text stop digits → Extends time moment digits maxPrecision) ∧
    ∀ fewer more time time', 0 ≤ fewer → fewer ≤ more →
      readPrecision format text zone fewer = .ok (.found time) →
      readPrecision format text zone more = .ok (.found time') →
      wholeMillis time.fraction ≤ wholeMillis time'.fraction := by
  refine ⟨fun maxPrecision years => ⟨?_, ?_, ?_⟩, ?_, ?_⟩
  · by_cases fraction : ∃ digits, FractionBehind text stop digits
    · obtain ⟨digits, behind⟩ := fraction
      obtain ⟨time, found⟩ := exists_found_of_inYears matched behind (years digits behind)
      exact ⟨_, found⟩
    · exact readPrecision_of_no_fraction matched
        (fun digits point allDigits => fraction ⟨digits, .inr point, allDigits⟩) maxPrecision
  · rintro ⟨time, found⟩
    exact exists_fractionBehind_of_found matched found
  · rintro ⟨digits, behind⟩
    exact exists_found_of_inYears matched behind (years digits behind)
  · intro maxPrecision time found digits behind
    exact extends_of_found matched behind found
  · intro fewer more time time' limited le found found'
    exact wholeMillis_le_of_found matched limited le found found'

theorem found_iff_fractionBehind_and_extends_before_epoch :
    let moment : DateTime := .ofUtc ⟨-500, by decide, by decide⟩
    let format : DateFormat := ⟨[], fun _ _ => .ok (some ⟨.dateTime moment, 1⟩)⟩
    let text : Text := "x.9995".toList
    let time : PrecisionTime := ⟨.ofUtc ⟨989500, by decide, by decide⟩, "99".toList, 2⟩
    let time' : PrecisionTime := ⟨.ofUtc ⟨998500, by decide, by decide⟩, "999".toList, 3⟩
    format.read text .utc = .ok (some ⟨.dateTime moment, 1⟩) ∧
      (∀ digits, FractionBehind text 1 digits → Reading.InYears
        (moment.reading.micros + wholeMillis (keptDigits digits 2) * 1000)) ∧
      ((∃ time, readPrecision format text .utc 2 = .ok (.found time)) ↔
        ∃ digits, FractionBehind text 1 digits) ∧
      FractionBehind text 1 "9995".toList ∧
      readPrecision format text .utc 2 = .ok (.found time) ∧
      readPrecision format text .utc 3 = .ok (.found time') ∧
      Extends time moment "9995".toList 2 ∧ time.toUnixTimestamp? = some (-1 + 990) ∧
      (0 : Int) ≤ 2 ∧ (2 : Int) ≤ 3 ∧ wholeMillis time.fraction ≤ wholeMillis time'.fraction := by
  intro moment format text time time'
  have matched : format.read text .utc = .ok (some ⟨.dateTime moment, 1⟩) := rfl
  have behind : FractionBehind text 1 "9995".toList :=
    ⟨.inr (by decide), List.all_eq_true.1 (by decide)⟩
  have years : ∀ digits, FractionBehind text 1 digits → Reading.InYears
      (moment.reading.micros + wholeMillis (keptDigits digits 2) * 1000) := by
    intro digits behind
    have few := wholeMillis_bounds (isDigit_of_mem_keptDigits behind.2 2)
    have start : moment.reading.micros = -500 := rfl
    rw [Reading.inYears_iff, start]
    omega
  have found : readPrecision format text .utc 2 = .ok (.found time) := by decide +kernel
  have found' : readPrecision format text .utc 3 = .ok (.found time') := by decide +kernel
  obtain ⟨answers, kept, grows⟩ := found_iff_fractionBehind_and_extends matched
  exact ⟨matched, years, (answers 2 years).2, behind, found, found', kept 2 time found _ behind,
    by decide +kernel, by decide, by decide,
    grows 2 3 time time' (by decide) (by decide) found found'⟩

end Almanac.DateFormat
