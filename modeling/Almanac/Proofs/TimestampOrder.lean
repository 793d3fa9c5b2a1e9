import Mathlib
import Almanac.Timestamp

/-! Timestamps in order. They are ordered by date and then by time of day. Main statements: a
midnight is not after a timestamp if and only if its date is not after the timestamp's, and not
before it if and only if its date is not before that of the first midnight from the timestamp on. -/

namespace Almanac.Timestamp

theorem le_iff (first second : Int) :
    first ≤ second ↔ date first < date second ∨
      date first = date second ∧ time first ≤ time second := by
  simp only [date, time, millisPerDay]
  omega

theorem date_mono {first second : Int} (order : first ≤ second) : date first ≤ date second := by
  rcases (le_iff first second).1 order with earlier | ⟨same, -⟩
  · exact earlier.le
  · exact same.le

theorem inDay_zero : InDay 0 := by decide

theorem date_midnight (unixDate : Int) : date (onDate unixDate 0) = unixDate :=
  date_onDate unixDate inDay_zero

theorem time_midnight (unixDate : Int) : time (onDate unixDate 0) = 0 :=
  time_onDate unixDate inDay_zero

theorem midnight_of_time_eq_zero {timestamp : Int} (h : time timestamp = 0) :
    onDate (date timestamp) 0 = timestamp := by
  rw [← h, onDate_date_time]

theorem midnight_le_iff {unixDate timestamp : Int} :
    onDate unixDate 0 ≤ timestamp ↔ unixDate ≤ date timestamp := by
  simp only [onDate, date, millisPerDay]
  omega

def dateFrom (timestamp : Int) : Int :=
  date timestamp + if time timestamp = 0 then 0 else 1

theorem le_midnight_iff {unixDate timestamp : Int} :
    timestamp ≤ onDate unixDate 0 ↔ dateFrom timestamp ≤ unixDate := by
  simp only [dateFrom, onDate, date, time, millisPerDay]
  omega

theorem date_le_dateFrom (timestamp : Int) : date timestamp ≤ dateFrom timestamp := by
  unfold dateFrom
  split <;> omega

end Almanac.Timestamp
