import Almanac.Field
import Almanac.Literal
import Almanac.Proofs.MonthOfDay

/-! Timestamps taken apart into fields and put together again. The date's fields come from the
quotient by a day, the clock's from the remainder, which lies in a day before the epoch too, so
that no check of a time of day can fail. Main statement: the fields of a timestamp make its whole
second, and the fields that a timestamp was made of are extracted from it. -/

namespace Almanac.Field
open Literal

structure Shows (timestamp : Int) (date : CalendarDate) (hour minute second : Int) : Prop where
  year : extractTimestamp .year timestamp = .ok date.year
  month : extractTimestamp .month timestamp = .ok date.month
  day : extractTimestamp .day timestamp = .ok date.day
  hour : extractTimestamp .hour timestamp = .ok hour
  minute : extractTimestamp .minute timestamp = .ok minute
  second : extractTimestamp .second timestamp = .ok second

theorem ofTime_eq_parts (time : Int) :
    ofTime time .hour = (ClockParts.ofTime time).hour ∧
      ofTime time .minute = (ClockParts.ofTime time).minute ∧
      ofTime time .second = (ClockParts.ofTime time).second := by
  simp only [ofTime, ClockParts.ofTime, millisPerHour, millisPerMinute, millisPerSecond, true_and]
  omega

theorem shows_parts (timestamp : Int) :
    Shows timestamp (.ofUnix (Timestamp.date timestamp))
      (ClockParts.ofTime (Timestamp.time timestamp)).hour
      (ClockParts.ofTime (Timestamp.time timestamp)).minute
      (ClockParts.ofTime (Timestamp.time timestamp)).second := by
  obtain ⟨hour, minute, second⟩ := ofTime_eq_parts (Timestamp.time timestamp)
  exact ⟨rfl, rfl, rfl, congrArg Except.ok hour, congrArg Except.ok minute,
    congrArg Except.ok second⟩

theorem parts_millis (timestamp : Int) :
    (ClockParts.ofTime (Timestamp.time timestamp)).millis = timestamp % 1000 := by
  simp only [ClockParts.ofTime, Timestamp.time, millisPerDay, millisPerHour, millisPerMinute,
    millisPerSecond]
  omega

theorem ofFields_parts (timestamp : Int) :
    Timestamp.ofFields (.ofUnix (Timestamp.date timestamp))
      (ClockParts.ofTime (Timestamp.time timestamp)).hour
      (ClockParts.ofTime (Timestamp.time timestamp)).minute
      (ClockParts.ofTime (Timestamp.time timestamp)).second = timestamp - timestamp % 1000 := by
  have sum := ClockParts.sum_ofTime (Timestamp.time timestamp)
  have whole := Timestamp.onDate_date_time timestamp
  rw [parts_millis] at sum
  rw [Timestamp.ofFields, CalendarDate.toUnix_ofUnix]
  simp only [Timestamp.onDate] at *
  omega

def OnClock (hour minute second : Int) : Prop :=
  (0 ≤ hour ∧ hour < 24) ∧ (0 ≤ minute ∧ minute < 60) ∧ 0 ≤ second ∧ second < 60

instance (hour minute second : Int) : Decidable (OnClock hour minute second) :=
  inferInstanceAs (Decidable (_ ∧ _))

theorem inDay_clockMillis {hour minute second : Int} (h : OnClock hour minute second) :
    Timestamp.InDay (Timestamp.clockMillis hour minute second) := by
  simp only [OnClock, Timestamp.InDay, Timestamp.clockMillis, millisPerDay, millisPerHour,
    millisPerMinute, millisPerSecond] at *
  omega

theorem ofTime_clockMillis {hour minute second : Int} (h : OnClock hour minute second) :
    ClockParts.ofTime (Timestamp.clockMillis hour minute second) = ⟨hour, minute, second, 0⟩ := by
  simp only [OnClock, ClockParts.ofTime, Timestamp.clockMillis, millisPerHour, millisPerMinute,
    millisPerSecond, ClockParts.mk.injEq] at *
  omega

theorem shows_ofFields {date : CalendarDate} {hour minute second : Int} (valid : date.Valid)
    (clock : OnClock hour minute second) :
    Shows (Timestamp.ofFields date hour minute second) date hour minute second := by
  have shown := shows_parts (Timestamp.ofFields date hour minute second)
  have inside := inDay_clockMillis clock
  rwa [Timestamp.ofFields, Timestamp.date_onDate _ inside, Timestamp.time_onDate _ inside,
    CalendarDate.ofUnix_toUnix valid, ofTime_clockMillis clock] at shown

/-- Every timestamp has all fields, and the time of day that the clock's are taken from passes its
check. They make the timestamp's whole second, before the epoch too, and that second is the number
of seconds since the epoch. Fields of a valid date and of a clock are extracted as they were put
in. -/
theorem shown_fields_recompose :
    (∀ timestamp : Int, ∃ date hour minute second sinceEpoch,
      Shows timestamp date hour minute second ∧
      extractTimestamp .epoch timestamp = .ok sinceEpoch ∧
      (∀ range ∈ [UnitRange.hour, .minute, .second],
        extractTime range (Timestamp.time timestamp) =
          (extractTimestamp range timestamp).mapError .unsupported) ∧
      Timestamp.ofFields date hour minute second = timestamp - timestamp % 1000 ∧
      timestamp - timestamp % 1000 = 1000 * sinceEpoch) ∧
    ∀ (date : CalendarDate) (hour minute second : Int), date.Valid →
      OnClock hour minute second →
      Shows (Timestamp.ofFields date hour minute second) date hour minute second := by
  refine ⟨fun timestamp => ?_, fun date hour minute second => shows_ofFields⟩
  refine ⟨_, _, _, _, timestamp / 1000, shows_parts timestamp, rfl, ?_, ofFields_parts timestamp,
    by omega⟩
  intro range member
  have clock : ∃ field, ClockField.ofRange? range = some field := by
    fin_cases member
    · exact ⟨.hour, rfl⟩
    · exact ⟨.minute, rfl⟩
    · exact ⟨.second, rfl⟩
  obtain ⟨field, named⟩ := clock
  rw [extractTime_time timestamp named, extractTimestamp, named]
  rfl

theorem shown_fields_recompose_leapDay :
    CalendarDate.Valid ⟨-4, 2, 29⟩ ∧ OnClock 23 59 59 ∧
      Shows (-62288265601000) ⟨-4, 2, 29⟩ 23 59 59 := by
  have valid : CalendarDate.Valid ⟨-4, 2, 29⟩ := by decide
  have clock : OnClock 23 59 59 := by decide
  exact ⟨valid, clock, shown_fields_recompose.2 _ 23 59 59 valid clock⟩

end Almanac.Field
