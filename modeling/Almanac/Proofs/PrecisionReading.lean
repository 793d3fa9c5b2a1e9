import Almanac.DateFormat
import Almanac.PatternScan
import Almanac.Proofs.FieldValues
import Almanac.Proofs.NumberLiterals

/-! Timestamps read in two ways: by a pattern with a fraction behind it, which is strict, and as a
literal, which takes any numbers. What the pattern accepts are plain numbers between its literals,
so that the reader of literals cuts the text at the same places and finds the same instant. They
part over the fraction alone, whose fourth digit is cut off by the one and rounded by the other.
Main statement: a text that the pattern of timestamps reads is a literal of the same timestamp, or
of the next one if the fourth digit of the fraction is 5 or greater. -/

namespace Almanac.DatePattern
open Numeral

section
variable {field : PatternField} {width : Nat} {c : Char} {tokens : List PatternToken} {text : Text}
  {pieces : List Text}

theorem Split.field_plain (split : Split (.field field width :: tokens) text pieces)
    (short : Short (.field field width :: tokens) pieces) :
    ∃ piece others behind, Plain piece ∧ pieces = piece :: others ∧
      Split tokens behind others ∧ Short tokens others := by
  cases split with
  | field nonempty digits exact rest =>
    obtain ⟨length, others⟩ := short_field_iff.1 short
    exact ⟨_, _, _, ⟨nonempty, digits, length⟩, rfl, rest, others⟩

theorem Split.field_literal (split : Split (.field field width :: .literal c :: tokens) text pieces)
    (short : Short (.field field width :: .literal c :: tokens) pieces) :
    ∃ piece others behind, Plain piece ∧ pieces = piece :: [c] :: others ∧
      Split tokens behind others ∧ Short tokens others := by
  obtain ⟨piece, _, _, plain, rfl, split, short⟩ := split.field_plain short
  cases split with
  | literal rest => exact ⟨piece, _, _, plain, rfl, rest, short⟩

end

def timestampTokens : List PatternToken :=
  [.field .year 4, .literal '-', .field .month 2, .literal '-', .field .day 2, .literal ' ',
    .field .hour 2, .literal ':', .field .minute 2, .literal ':', .field .second 2]

theorem ofText_timestamp : ofText timestamp = .ok ⟨timestamp, timestampTokens⟩ := rfl

theorem exists_plain_of_timestamp {text : Text} {pieces : List Text}
    (split : Split timestampTokens text pieces) (short : Short timestampTokens pieces) :
    ∃ year month day hour minute second, (Plain year ∧ Plain month ∧ Plain day) ∧
      (Plain hour ∧ Plain minute ∧ Plain second) ∧
      pieces = [year, ['-'], month, ['-'], day, [' '], hour, [':'], minute, [':'], second] := by
  obtain ⟨year, _, _, year', rfl, split, short⟩ := split.field_literal short
  obtain ⟨month, _, _, month', rfl, split, short⟩ := split.field_literal short
  obtain ⟨day, _, _, day', rfl, split, short⟩ := split.field_literal short
  obtain ⟨hour, _, _, hour', rfl, split, short⟩ := split.field_literal short
  obtain ⟨minute, _, _, minute', rfl, split, short⟩ := split.field_literal short
  obtain ⟨second, _, _, second', rfl, split, -⟩ := split.field_plain short
  cases split
  exact ⟨year, month, day, hour, minute, second, ⟨year', month', day'⟩,
    ⟨hour', minute', second'⟩, rfl⟩

theorem writtenValues_timestamp (year month day hour minute second : Text) :
    writtenValues timestampTokens
        [year, ['-'], month, ['-'], day, [' '], hour, [':'], minute, [':'], second] =
      ⟨value year, value month, value day, value hour, value minute, value second, 0⟩ := rfl

end Almanac.DatePattern

namespace Almanac.DateFormat
open Literal

theorem exists_of_bind_ok {ε α β : Type} {x : Except ε α} {f : α → Except ε β} {b : β}
    (h : x >>= f = .ok b) : ∃ a, x = .ok a ∧ f a = .ok b := by
  cases x with
  | error e => cases h
  | ok a => exact ⟨a, rfl, h⟩

theorem needDateTime_eq_ok {value : Value} {moment : DateTime}
    (h : needDateTime value = .ok moment) : value = .dateTime moment := by
  cases value with
  | dateTime given =>
    cases h
    rfl
  | _ => cases h

theorem value_of_withFraction {moment : DateTime} {fraction : Text} {time : PrecisionTime}
    (h : withFraction moment fraction = .ok time) :
    time.value.zone? = moment.zone? ∧
      time.value.reading.micros = moment.reading.micros + fractionMillis fraction * 1000 := by
  unfold withFraction at h
  split at h
  · next reading added =>
    cases h
    exact ⟨rfl, Reading.micros_of_ofMicros? added⟩
  · cases h

theorem exists_of_readPrecision {format : DateFormat} {text : Text} {zone : Zone}
    {maxPrecision : Int} {time : PrecisionTime}
    (h : readPrecision format text zone maxPrecision = .ok (.found time)) :
    ∃ moment stop, format.read text zone = .ok (some ⟨.dateTime moment, stop⟩) ∧
      (text.length ≤ stop ∧ time = ⟨moment, [], 0⟩ ∨
        ∃ digits, text.suffixFrom stop = '.' :: digits ∧ (∀ c ∈ digits, c.isDigit) ∧
          withFraction moment (keptDigits digits maxPrecision) = .ok time) := by
  unfold readPrecision at h
  split at h
  · cases h
  · cases h
  · next value stop taken =>
    split at h
    · split at h
      · next digits point =>
        split at h
        · next allDigits =>
          obtain ⟨moment, given, added⟩ := exists_of_bind_ok h
          obtain ⟨sum, added, same⟩ := exists_of_bind_ok added
          cases same
          rw [needDateTime_eq_ok given] at taken
          exact ⟨moment, stop, taken, .inr ⟨digits, point, List.all_eq_true.1 allDigits, added⟩⟩
        · cases h
      · cases h
    · next whole =>
      obtain ⟨moment, given, same⟩ := exists_of_bind_ok h
      cases same
      rw [needDateTime_eq_ok given] at taken
      exact ⟨moment, stop, taken, .inl ⟨Int.not_lt.1 whole, rfl⟩⟩

theorem read_of_toFormat {pattern : DatePattern} {text : Text} {zone : Zone} {moment : DateTime}
    {stop : Int} (h : pattern.toFormat.read text zone = .ok (some ⟨.dateTime moment, stop⟩)) :
    pattern.read text (0 : Nat) zone = .ok (some ⟨moment, stop⟩) := by
  obtain ⟨_, same, taken⟩ := DatePattern.toFormat_read_eq_some_iff.1 h
  cases same
  exact taken

theorem keptDigits_prefix_digits (digits : Text) (maxPrecision : Int) :
    keptDigits digits maxPrecision <+: digits := by
  unfold keptDigits
  split
  · exact List.take_prefix _ _
  · exact List.prefix_rfl

theorem keptDigits_nil (maxPrecision : Int) : keptDigits [] maxPrecision = [] :=
  List.prefix_nil.1 (keptDigits_prefix_digits [] maxPrecision)

theorem exists_of_readPrecision_pattern {pattern : DatePattern} {text : Text}
    {offset maxPrecision : Int} {time : PrecisionTime}
    (separate : DatePattern.Separate pattern.tokens)
    (h : readPrecision pattern.toFormat text (.fixed offset) maxPrecision = .ok (.found time)) :
    ∃ pieces rest digits, text = pieces.flatten ++ rest ∧
      DatePattern.Split pattern.tokens text pieces ∧ DatePattern.Short pattern.tokens pieces ∧
      Behind rest digits ∧ (∀ c ∈ digits, c.isDigit) ∧
      time.fraction = keptDigits digits maxPrecision ∧
      time.value.zone? = some .utc ∧ time.value.reading.micros =
        (DatePattern.writtenValues pattern.tokens pieces).micros - offset +
          fractionMillis time.fraction * 1000 := by
  obtain ⟨moment, stop, taken, ending⟩ := exists_of_readPrecision h
  obtain ⟨pieces, split, short, -, utc, count, same⟩ :=
    DatePattern.exists_of_read separate (Nat.zero_le _) (read_of_toFormat taken)
  cases same
  rw [List.drop_zero] at split
  obtain ⟨rest, whole⟩ := split.prefix_flatten
  have behind : text.suffixFrom (0 + pieces.flatten.length : Nat) = rest := by
    rw [Nat.zero_add, Text.suffixFrom_natCast, whole, List.drop_left]
  refine ⟨pieces, rest, ?_⟩
  rcases ending with ⟨last, rfl⟩ | ⟨digits, point, allDigits, added⟩
  · have nothing : rest = [] := by
      have length := congrArg List.length whole
      rw [List.length_append] at length
      exact List.eq_nil_of_length_eq_zero (by omega)
    have noMillis : fractionMillis [] = 0 := rfl
    refine ⟨[], whole, split, short, .inl ⟨nothing, rfl⟩, List.forall_mem_nil _,
      (keptDigits_nil maxPrecision).symm, rfl, ?_⟩
    simp only [DateTime.ofUtc, count, noMillis]
    omega
  · obtain ⟨zone, sum⟩ := value_of_withFraction added
    have kept := (precision_of_withFraction added).1
    refine ⟨digits, whole, split, short, .inr (behind.symm.trans point), allDigits, kept, zone, ?_⟩
    rw [sum, kept, ← count]
    rfl

/-- A fraction with a fourth digit, 5 to 9. -/
def RoundsUp (fraction : Text) : Prop := ∃ c ∈ fraction[3]?, '5' ≤ c ∧ c ≤ '9'

instance (fraction : Text) : Decidable (RoundsUp fraction) :=
  inferInstanceAs (Decidable (∃ c ∈ fraction[3]?, _))

theorem roundsUp_iff {fraction : Text} (digits : ∀ c ∈ fraction, c.isDigit) :
    RoundsUp fraction ↔ 5 ≤ ((fraction.drop 3).head?.map fractionDigit).getD 0 := by
  unfold RoundsUp
  rw [List.head?_drop]
  cases fourth : fraction[3]? with
  | none => simp
  | some c =>
    have digit := digits c (List.mem_of_getElem? fourth)
    have bounds := Numeral.toNat_bounds_of_isDigit digit
    have five : '5' ≤ c ↔ 53 ≤ c.toNat := Iff.rfl
    have nine : c ≤ '9' ↔ c.toNat ≤ 57 := Iff.rfl
    have zero : '0'.toNat = 48 := rfl
    simp only [Option.mem_some_iff, exists_eq_left', Option.map_some, Option.getD_some,
      fractionDigit_of_isDigit digit, five, nine, zero]
    omega

theorem carry_drop_three {fraction : Text} (digits : ∀ c ∈ fraction, c.isDigit) :
    carry (fraction.drop 3) = if RoundsUp fraction then 1 else 0 := by
  have fourth := roundsUp_iff digits
  unfold carry
  by_cases up : RoundsUp fraction
  · rw [if_pos up, if_neg (Nat.not_lt.2 (fourth.1 up))]
  · rw [if_neg up, if_pos (Nat.not_le.1 fun five => up (fourth.2 five))]

theorem readFraction_eq_fractionMillis {fraction : Text} (digits : ∀ c ∈ fraction, c.isDigit) :
    readFraction 2 fraction = fractionMillis fraction + if RoundsUp fraction then 1 else 0 := by
  rw [readFraction_eq 2 digits, carry_drop_three digits]
  rfl

theorem toUnixTimestamp?_of_utc {time : PrecisionTime} {values : DatePattern.FieldValues}
    {millis : Int} (zone : time.value.zone? = some .utc)
    (count : time.value.reading.micros = values.micros + millis * 1000) :
    time.toUnixTimestamp? =
      some (Timestamp.ofFields values.date values.hour values.minute values.second +
        values.milli + millis) := by
  have offset : time.value.offset? = some 0 := DateTime.offset?_of_fixed zone
  rw [PrecisionTime.toUnixTimestamp?, DateTime.instant, offset, count,
    DatePattern.FieldValues.micros, ← Int.add_mul]
  simp

/-- A text that the pattern of timestamps reads in UTC, with all digits of the fraction behind it,
is a literal of the same timestamp, or of the next one if the fraction's fourth digit rounds up. -/
theorem readTimestamp_of_readPrecision {pattern : DatePattern}
    (accepted : DatePattern.ofText DatePattern.timestamp = .ok pattern) {text : Text}
    {time : PrecisionTime}
    (found : readPrecision pattern.toFormat text .utc (-1) = .ok (.found time)) :
    ∃ timestamp, time.toUnixTimestamp? = some timestamp ∧
      readTimestamp text =
        .ok (if RoundsUp time.fraction then timestamp + 1 else timestamp) := by
  cases DatePattern.ofText_timestamp.symm.trans accepted
  obtain ⟨pieces, rest, fraction, rfl, split, short, behind, digits, kept, zone, count⟩ :=
    exists_of_readPrecision_pattern (DatePattern.separate_of_ofText accepted) found
  have whole : time.fraction = fraction := kept
  rw [← whole] at behind digits
  obtain ⟨year, month, day, hour, minute, second, ⟨year', month', day'⟩,
    ⟨hour', minute', second'⟩, rfl⟩ := DatePattern.exists_plain_of_timestamp split short
  have read := readTimestamp_plain year' month' day' hour' minute' second' behind digits
  rw [readFraction_eq_fractionMillis digits, Int.natCast_add, ← Int.add_assoc] at read
  rw [DatePattern.writtenValues_timestamp, Int.sub_zero] at count
  have instant := toUnixTimestamp?_of_utc zone count
  simp only [DatePattern.FieldValues.date, Int.add_zero] at instant
  simp only [List.flatten_cons, List.flatten_nil, List.append_assoc, List.cons_append,
    List.nil_append] at read ⊢
  refine ⟨_, instant, ?_⟩
  rw [read]
  split
  · rfl
  · rw [Int.natCast_zero, Int.add_zero]

theorem readTimestamp_of_readPrecision_before_epoch :
    let pattern : DatePattern := ⟨DatePattern.timestamp, DatePattern.timestampTokens⟩
    let time : PrecisionTime := ⟨.ofUtc ⟨-1000, by decide, by decide⟩, "99951".toList, 5⟩
    DatePattern.ofText DatePattern.timestamp = .ok pattern ∧
      readPrecision pattern.toFormat "1969-12-31 23:59:59.99951".toList .utc (-1) =
        .ok (.found time) ∧
      time.toUnixTimestamp? = some (-1) ∧
      readTimestamp "1969-12-31 23:59:59.99951".toList = .ok 0 := by
  intro pattern time
  have found : readPrecision pattern.toFormat "1969-12-31 23:59:59.99951".toList .utc (-1) =
      .ok (.found time) := by decide +kernel
  have before : time.toUnixTimestamp? = some (-1) := by decide +kernel
  obtain ⟨timestamp, instant, read⟩ :=
    readTimestamp_of_readPrecision DatePattern.ofText_timestamp found
  cases instant.symm.trans before
  have up : RoundsUp time.fraction := ⟨'5', rfl, by decide, by decide⟩
  rw [if_pos up] at read
  exact ⟨DatePattern.ofText_timestamp, found, before, read⟩

end Almanac.DateFormat
