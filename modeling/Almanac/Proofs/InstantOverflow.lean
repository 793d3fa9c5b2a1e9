import Almanac.DateFormat
import Almanac.Proofs.UtcInstant

/-! Instants that leave the readable span. A fixed offset is shorter than a day, so that only
readings of the first and the last year of the span can name an instant outside it. A clock of UTC
shows no such instant, and a timestamp that is taken from its reading does not exist; as a distance
from the epoch it does. Main statement: the two timestamps of a reading are the same, or the one
taken from the clock of UTC is out of range. -/

namespace Almanac.Reading

theorem date_eq_ofUnix (reading : Reading) :
    reading.date = CalendarDate.ofUnix (reading.micros / microsPerDay) := by
  rw [date, Ordinal.toDate_eq, Int.add_sub_cancel]

theorem inYears_add {reading : Reading} {micros : Int} (low : 2 ≤ reading.date.year)
    (high : reading.date.year ≤ 9998) (back : -microsPerDay ≤ micros)
    (forth : micros ≤ microsPerDay) : InYears (reading.micros + micros) := by
  have second : MonthIndex.firstDay (12 * 2) = -718797 := by decide
  have last : MonthIndex.firstDay (12 * 9999) = 2932532 := by decide
  have fromSecond : 2 ≤ (CalendarDate.ofUnix (reading.micros / microsPerDay)).year ↔ _ :=
    MonthIndex.le_year_iff
  have fromLast : 9999 ≤ (CalendarDate.ofUnix (reading.micros / microsPerDay)).year ↔ _ :=
    MonthIndex.le_year_iff
  rw [second] at fromSecond
  rw [last] at fromLast
  rw [date_eq_ofUnix] at low high
  rw [inYears_iff]
  simp only [microsPerDay] at *
  omega

end Almanac.Reading

namespace Almanac.PrecisionTime

theorem toUnixTimestamp?_of_offset {time : PrecisionTime} {offset : Int}
    (h : time.value.offset? = some offset) :
    time.toUnixTimestamp? = some (time.value.utcMicros / 1000) := by
  rw [toUnixTimestamp?, h, DateTime.instant_eq_utcMicros]
  rfl

end Almanac.PrecisionTime

namespace Almanac.DateTime
variable {dateTime : DateTime} {offset : Int}

/-- The fraction and the precision that stand beside a value do not count. -/
theorem timestamps_agree_or_overflow (h : dateTime.zone? = some (.fixed offset)) :
    (∀ fraction precision, PrecisionTime.toUnixTimestamp? ⟨dateTime, fraction, precision⟩ =
      some (dateTime.utcMicros / 1000)) ∧
    (Reading.InYears dateTime.utcMicros →
      dateTime.toUnixTimestamp = .ok (dateTime.utcMicros / 1000)) ∧
    (¬Reading.InYears dateTime.utcMicros → dateTime.toUnixTimestamp = .error .outOfRange) :=
  ⟨fun _ _ => PrecisionTime.toUnixTimestamp?_of_offset (offset?_of_fixed h),
    toUnixTimestamp_of_inYears, toUnixTimestamp_of_not_inYears⟩

theorem timestamps_agree_or_overflow_ahead :
    let first : DateTime := ⟨⟨-62135596800000000, by decide, by decide⟩, some (.fixed 1)⟩
    let epoch : DateTime := ⟨⟨0, by decide, by decide⟩, some (.fixed 500)⟩
    PrecisionTime.toUnixTimestamp? ⟨first, [], 0⟩ = some (-62135596800001) ∧
      first.toUnixTimestamp = .error .outOfRange ∧
      PrecisionTime.toUnixTimestamp? ⟨epoch, [], 0⟩ = some (-1) ∧
      epoch.toUnixTimestamp = .ok (-1) := by
  intro first epoch
  have outside : ¬Reading.InYears first.utcMicros := by decide
  have inside : Reading.InYears epoch.utcMicros := by decide
  obtain ⟨distance, -, refused⟩ := @timestamps_agree_or_overflow first 1 rfl
  obtain ⟨distance', taken, -⟩ := @timestamps_agree_or_overflow epoch 500 rfl
  exact ⟨distance [] 0, refused outside, distance' [] 0, taken inside⟩

theorem timestamps_agree_of_inner_year {time : PrecisionTime}
    (h : time.value.zone? = some (.fixed offset)) (behind : -microsPerDay < offset)
    (ahead : offset < microsPerDay) (low : 2 ≤ time.value.reading.date.year)
    (high : time.value.reading.date.year ≤ 9998) :
    ∃ timestamp, time.toUnixTimestamp? = some timestamp ∧
      time.value.toUnixTimestamp = .ok timestamp := by
  have given := offset?_of_fixed h
  have years := Reading.inYears_add low high (neg_le_neg ahead.le) (neg_le.1 behind.le)
  have inside : Reading.InYears time.value.utcMicros := by
    rwa [← instant_eq_utcMicros, instant, given, Option.getD_some, sub_eq_add_neg]
  exact ⟨_, PrecisionTime.toUnixTimestamp?_of_offset given, toUnixTimestamp_of_inYears inside⟩

end Almanac.DateTime
