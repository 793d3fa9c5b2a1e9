import Almanac.Value
import Almanac.Proofs.FractionDigits
import Almanac.Proofs.TimestampFields
import Almanac.Proofs.UtcInstant

/-! The reading of a clock of UTC at a timestamp, by five accounts. A reading finds its date by
ordinals and its time in microseconds; fields are extracted by day numbers; a unix date and a time
of day are converted each for itself; text is written from quotients and remainders. Main
statement: they agree on every millisecond of the years 1..9999, and no other timestamp has a
reading. -/

namespace Almanac.Reading
open Literal Numeral

section
variable {reading : Reading} {timestamp : Int}

theorem date_of_millis (h : reading.micros = timestamp * 1000) :
    reading.date = .ofUnix (Timestamp.date timestamp) := by
  have days : reading.micros / microsPerDay + Ordinal.epoch - Ordinal.epoch =
      Timestamp.date timestamp := by
    simp only [h, Timestamp.date, millisPerDay, microsPerDay]
    omega
  rw [date, Ordinal.toDate_eq, days]

theorem time_of_millis (h : reading.micros = timestamp * 1000) :
    let parts := ClockParts.ofTime (Timestamp.time timestamp)
    reading.time = ⟨parts.hour, parts.minute, parts.second, parts.millis * 1000⟩ := by
  simp only [time, ClockTime.ofMicros, ClockParts.ofTime, Timestamp.time, ClockTime.mk.injEq, h,
    microsPerDay, microsPerSecond, millisPerDay, millisPerHour, millisPerMinute, millisPerSecond]
  omega

theorem ofUnixTime?_of_millis (h : reading.micros = timestamp * 1000) :
    ClockTime.ofUnixTime? (Timestamp.time timestamp) = some reading.time := by
  rw [ClockTime.ofUnixTime?, if_pos (Timestamp.inDay_time timestamp), time_of_millis h]

theorem toUnixTime_of_millis (h : reading.micros = timestamp * 1000) :
    reading.time.toUnixTime = Timestamp.time timestamp := by
  have sum := ClockParts.sum_ofTime (Timestamp.time timestamp)
  rw [time_of_millis h, ClockTime.toUnixTime, Int.mul_ediv_cancel _ (by decide)]
  exact sum

theorem ofUnixByOrdinal_of_millis (h : reading.micros = timestamp * 1000) :
    CalendarDate.ofUnixByOrdinal (Timestamp.date timestamp) = .ok reading.date := by
  have low := reading.first_le
  have high := reading.le_last
  have inside : 1 ≤ Timestamp.date timestamp + Ordinal.epoch ∧
      Timestamp.date timestamp + Ordinal.epoch ≤ 3652059 := by
    simp only [Timestamp.date, millisPerDay, Ordinal.epoch]
    omega
  rw [CalendarDate.ofUnixByOrdinal, if_neg (by omega), if_pos inside, Ordinal.toDate_eq,
    Int.add_sub_cancel, date_of_millis h]

theorem toUnixByOrdinal_of_millis (h : reading.micros = timestamp * 1000) :
    reading.date.toUnixByOrdinal = Timestamp.date timestamp := by
  rw [CalendarDate.toUnixByOrdinal, Ordinal.ofDate_eq reading.valid_date, Int.add_sub_cancel,
    date_of_millis h, CalendarDate.toUnix_ofUnix]

end

theorem writeTimestamp_three (timestamp : Int) :
    let date := CalendarDate.ofUnix (Timestamp.date timestamp)
    let parts := ClockParts.ofTime (Timestamp.time timestamp)
    writeTimestamp timestamp 3 =
      zeroPadded 4 date.year ++ '-' :: zeroPadded 2 date.month ++ '-' :: zeroPadded 2 date.day ++
        ' ' :: zeroPadded 2 parts.hour ++ ':' :: zeroPadded 2 parts.minute ++
        ':' :: zeroPadded 2 parts.second ++ '.' :: zeroPadded 3 parts.millis := by
  intro date parts
  have millis : 0 ≤ parts.millis ∧ parts.millis < 1000 := by
    simp only [parts, Field.parts_millis]
    omega
  have three := length_zeroPadded_millis millis.1 millis.2
  have fraction : fractionText parts.millis (3 : Int).toNat = zeroPadded 3 parts.millis := by
    rw [fractionText_of_le millis.1 millis.2 (by decide), List.take_of_length_le (by omega)]
  simp only [writeTimestamp, writeDate, writeCalendarDate, writeTime]
  rw [if_pos (by decide), fraction]
  simp only [List.append_assoc, List.cons_append, date, parts]

/-- A reading of a clock of UTC that shows a timestamp, whichever way its date and time are come
by. -/
structure Represents (reading : Reading) (timestamp : Int) : Prop where
  fields : Field.Shows timestamp reading.date reading.time.hour reading.time.minute
    reading.time.second
  micro : reading.time.micro = 1000 * (timestamp % 1000)
  ofDate : CalendarDate.ofUnixByOrdinal (Timestamp.date timestamp) = .ok reading.date
  ofTime : ClockTime.ofUnixTime? (Timestamp.time timestamp) = some reading.time
  toDate : (Value.date reading.date).toUnixDate = .ok (Timestamp.date timestamp)
  toTime : (Value.time reading.time none).toUnixTime = .ok (Timestamp.time timestamp)
  text : writeTimestamp timestamp 3 =
    zeroPadded 4 reading.date.year ++ '-' :: zeroPadded 2 reading.date.month ++
      '-' :: zeroPadded 2 reading.date.day ++ ' ' :: zeroPadded 2 reading.time.hour ++
      ':' :: zeroPadded 2 reading.time.minute ++ ':' :: zeroPadded 2 reading.time.second ++
      '.' :: zeroPadded 3 (timestamp % 1000)

theorem represents_of_millis {reading : Reading} {timestamp : Int}
    (h : reading.micros = timestamp * 1000) : reading.Represents timestamp where
  fields := by
    have shown := Field.shows_parts timestamp
    rw [date_of_millis h, time_of_millis h]
    exact shown
  micro := by
    rw [time_of_millis h, Field.parts_millis]
    exact Int.mul_comm ..
  ofDate := ofUnixByOrdinal_of_millis h
  ofTime := ofUnixTime?_of_millis h
  toDate := congrArg Except.ok (toUnixByOrdinal_of_millis h)
  toTime := congrArg Except.ok (toUnixTime_of_millis h)
  text := by
    rw [writeTimestamp_three, Field.parts_millis, date_of_millis h, time_of_millis h]

end Almanac.Reading

namespace Almanac.DateTime

/-- The first millisecond of the year 1 is -62135596800000, the last one of the year 9999 is
253402300799999. -/
theorem ofUnixTimestamp_represents (timestamp : Int) :
    (-62135596800000 ≤ timestamp ∧ timestamp ≤ 253402300799999 →
      ∃ reading, ofUnixTimestamp timestamp none = .ok ⟨reading, none⟩ ∧
        reading.Represents timestamp) ∧
    (timestamp < -62135596800000 ∨ 253402300799999 < timestamp →
      ofUnixTimestamp timestamp none = .error .outOfRange) := by
  have years : Reading.InYears (timestamp * 1000) ↔ _ := Reading.inYears_iff
  constructor
  · intro inside
    obtain ⟨reading, count, found⟩ := ofUnixTimestamp_naive (years.2 (by omega))
    exact ⟨reading, found, Reading.represents_of_millis count⟩
  · intro outside
    apply ofUnixTimestamp_of_not_inYears
    rw [years]
    omega

theorem ofUnixTimestamp_represents_ends :
    (∃ reading, ofUnixTimestamp (-58060800001) none = .ok ⟨reading, none⟩ ∧
      reading.Represents (-58060800001)) ∧
    ofUnixTimestamp 253402300800000 none = .error .outOfRange :=
  ⟨(ofUnixTimestamp_represents (-58060800001)).1 (by decide),
    (ofUnixTimestamp_represents 253402300800000).2 (by decide)⟩

end Almanac.DateTime
