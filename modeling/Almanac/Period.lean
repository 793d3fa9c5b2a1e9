import Almanac.IsoWeek
import Almanac.MonthIndex
import Almanac.Timestamp
import Almanac.UnitRange

/-!
Calendar periods, from the millennium down to the day, and the dates that begin them. Decades,
centuries and millennia are found by division towards zero, so that before the year 0 the start
found for a date may lie after it. Main statement: a date that begins a period is its own ceiling.
-/

namespace Almanac

/-- Weeks begin on Sunday. -/
inductive Period where
  | millennium | century | decade | year | quarter | month | week | day
deriving DecidableEq, Repr

namespace Period

def ofRange? : UnitRange → Option Period
  | .millennium => some millennium
  | .century => some century
  | .decade => some decade
  | .year => some year
  | .quarter => some quarter
  | .month => some month
  | .week => some week
  | .day => some day
  | _ => none

def newYear (year : Int) : Int := CalendarDate.toUnix ⟨year, 1, 1⟩

/-- The last year of the span that a year lies in; spans end with multiples of their length. -/
def lastYear (length year : Int) : Int := length * (year + (length - 1)).tdiv length

def floor (period : Period) (unixDate : Int) : Int :=
  let date := CalendarDate.ofUnix unixDate
  match period with
  | millennium => newYear (lastYear 1000 date.year - 999)
  | century => newYear (lastYear 100 date.year - 99)
  | decade => newYear (10 * date.year.tdiv 10)
  | year => newYear date.year
  | quarter => MonthIndex.firstDay (12 * date.year + (date.month - 1) / 3 * 3)
  | month => MonthIndex.firstDay (MonthIndex.ofDate date)
  | week => unixDate - IsoWeek.daysSinceSunday (unixDate + epochJulian)
  | day => unixDate

def next (period : Period) (unixDate : Int) : Int :=
  let date := CalendarDate.ofUnix unixDate
  match period with
  | millennium => newYear (lastYear 1000 date.year + 1)
  | century => newYear (lastYear 100 date.year + 1)
  | decade => newYear (10 * (date.year.tdiv 10 + 1))
  | year => newYear (date.year + 1)
  | quarter => MonthIndex.firstDay (12 * date.year + (date.month - 1) / 3 * 3 + 3)
  | month => MonthIndex.firstDay (MonthIndex.ofDate date + 1)
  | week => unixDate - IsoWeek.daysSinceSunday (unixDate + epochJulian) + 7
  | day => unixDate + 1

def ceil (period : Period) (unixDate : Int) : Int :=
  if period.floor unixDate = unixDate then unixDate else period.next unixDate

theorem ceil_of_floor_eq {period : Period} {unixDate : Int}
    (h : period.floor unixDate = unixDate) : period.ceil unixDate = unixDate := by
  simp [ceil, h]

def floorTimestamp (period : Period) (timestamp : Int) : Int :=
  Timestamp.onDate (period.floor (Timestamp.date timestamp)) 0

/-- A timestamp after midnight is rounded up from the midnight that follows it. -/
def ceilTimestamp (period : Period) (timestamp : Int) : Int :=
  let midnight := Timestamp.date timestamp + if Timestamp.time timestamp = 0 then 0 else 1
  Timestamp.onDate (period.ceil midnight) 0

def roundBy (refusal : UnitRange → UnsupportedRange) (round : Period → Int → Int)
    (range : UnitRange) (moment : Int) : Except UnsupportedRange Int :=
  match ofRange? range with
  | some period => .ok (round period moment)
  | none => .error (refusal range)

def floorDate : UnitRange → Int → Except UnsupportedRange Int := roundBy .floor floor

def ceilDate : UnitRange → Int → Except UnsupportedRange Int := roundBy .ceil ceil

def floorMoment : UnitRange → Int → Except UnsupportedRange Int := roundBy .floor floorTimestamp

def ceilMoment : UnitRange → Int → Except UnsupportedRange Int := roundBy .ceil ceilTimestamp

end Period

end Almanac
