import Almanac.IsoWeek
import Almanac.Timestamp
import Almanac.UnitRange

/-!
Single fields of dates, times and timestamps. A date field is a number for every day; which ranges
name a field, and which of them a time or a timestamp has, is decided before its value is taken.
Main statements: every time-of-day field of a timestamp has a value, before the epoch too.
-/

namespace Almanac.Field

inductive DateField where
  | year | isoYear | quarter | month | day | dayOfWeek | isoDayOfWeek | week | dayOfYear
  | decade | century | millennium
deriving DecidableEq, Repr

namespace DateField

def ofRange? : UnitRange → Option DateField
  | .year => some year
  | .isoYear => some isoYear
  | .quarter => some quarter
  | .month => some month
  | .day => some day
  | .dayOfWeek => some dayOfWeek
  | .isoDayOfWeek => some isoDayOfWeek
  | .week => some week
  | .dayOfYear => some dayOfYear
  | .decade => some decade
  | .century => some century
  | .millennium => some millennium
  | _ => none

end DateField

/-- The number of the span of years that a year lies in. Spans after year 0 are numbered from 1 up,
spans before it from -1 down; year 0 alone has the number 0. -/
def spanNumber (length year : Int) : Int :=
  if 0 < year then (year + (length - 1)).tdiv length else (year - (length - 1)).tdiv length

/-- The value of a field on a Julian day. Weeks run from Sunday 1 to Saturday 7, ISO weeks from
Monday 1 to Sunday 7. -/
def ofJulian (julian : Int) : DateField → Int
  | .year => (CalendarDate.ofJulian julian).year
  | .isoYear => IsoWeek.year julian
  | .quarter => ((CalendarDate.ofJulian julian).month + 2) / 3
  | .month => (CalendarDate.ofJulian julian).month
  | .day => (CalendarDate.ofJulian julian).day
  | .dayOfWeek => IsoWeek.daysSinceSunday julian + 1
  | .isoDayOfWeek => IsoWeek.daysSinceMonday julian + 1
  | .week => IsoWeek.week julian
  | .dayOfYear => julian - IsoWeek.newYear (CalendarDate.ofJulian julian).year + 1
  | .decade => (CalendarDate.ofJulian julian).year.tdiv 10
  | .century => spanNumber 100 (CalendarDate.ofJulian julian).year
  | .millennium => spanNumber 1000 (CalendarDate.ofJulian julian).year

def extractJulian (range : UnitRange) (julian : Int) : Except UnsupportedRange Int :=
  match DateField.ofRange? range with
  | some field => .ok (ofJulian julian field)
  | none => .error (.extractFromDate range)

/-- A date has the seconds since the epoch for a field too. -/
def extractDate (range : UnitRange) (unixDate : Int) : Except UnsupportedRange Int :=
  if range = .epoch then .ok (unixDate * secondsPerDay)
  else extractJulian range (unixDate + epochJulian)

inductive ClockField where
  | hour | minute | second
deriving DecidableEq, Repr

namespace ClockField

def ofRange? : UnitRange → Option ClockField
  | .hour => some hour
  | .minute => some minute
  | .second => some second
  | _ => none

end ClockField

def ofTime (time : Int) : ClockField → Int
  | .hour => time / millisPerHour
  | .minute => time / millisPerMinute % 60
  | .second => time / millisPerSecond % 60

inductive TimeError where
  | notInDay
  | unsupported (error : UnsupportedRange)
deriving DecidableEq, Repr

/-- The field that a range names, taken from a time of day. That the time lies in a day is asked
before the range is. -/
def extractTime (range : UnitRange) (time : Int) : Except TimeError Int :=
  if Timestamp.InDay time then
    match ClockField.ofRange? range with
    | some field => .ok (ofTime time field)
    | none => .error (.unsupported (.extractFromTime range))
  else .error .notInDay

theorem extractTime_eq_notInDay_iff {range : UnitRange} {time : Int} :
    extractTime range time = .error .notInDay ↔ ¬Timestamp.InDay time := by
  unfold extractTime
  repeat' split
  all_goals simp_all

/-- The field that a range names, taken from a timestamp. The time of day has the hour, minute and
second, the date all other fields. -/
def extractTimestamp (range : UnitRange) (timestamp : Int) : Except UnsupportedRange Int :=
  match ClockField.ofRange? range with
  | some field => .ok (ofTime (Timestamp.time timestamp) field)
  | none =>
    if range = .epoch then .ok (timestamp / millisPerSecond)
    else extractDate range (Timestamp.date timestamp)

theorem extractTime_time {range : UnitRange} {field : ClockField} (timestamp : Int)
    (h : ClockField.ofRange? range = some field) :
    extractTime range (Timestamp.time timestamp) =
      .ok (ofTime (Timestamp.time timestamp) field) := by
  simp [extractTime, Timestamp.inDay_time, h]

end Almanac.Field
