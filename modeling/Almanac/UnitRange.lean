import Almanac.TimeUnit

/-!
Single time units and spans from a larger unit down to a smaller one, as fields are asked for and
intervals are declared by them. Main statements: a range is found again by its name and by its
units.
-/

namespace Almanac

inductive UnitRange where
  | year | yearToMonth | month
  | day | dayToHour | dayToMinute | dayToSecond
  | hour | hourToMinute | hourToSecond
  | minute | minuteToSecond | second
  | isoYear | quarter | week
  | millisecond | microsecond | nanosecond
  | dayOfWeek | isoDayOfWeek | dayOfYear | epoch
  | decade | century | millennium
deriving DecidableEq, Repr

namespace UnitRange

def all : List UnitRange :=
  [year, yearToMonth, month, day, dayToHour, dayToMinute, dayToSecond, hour, hourToMinute,
    hourToSecond, minute, minuteToSecond, second, isoYear, quarter, week, millisecond, microsecond,
    nanosecond, dayOfWeek, isoDayOfWeek, dayOfYear, epoch, decade, century, millennium]

theorem mem_all (range : UnitRange) : range ∈ all := by cases range <;> decide

def start : UnitRange → TimeUnit
  | year | yearToMonth => .year
  | month => .month
  | day | dayToHour | dayToMinute | dayToSecond => .day
  | hour | hourToMinute | hourToSecond => .hour
  | minute | minuteToSecond => .minute
  | second => .second
  | isoYear => .isoYear
  | quarter => .quarter
  | week => .week
  | millisecond => .millisecond
  | microsecond => .microsecond
  | nanosecond => .nanosecond
  | dayOfWeek => .dayOfWeek
  | isoDayOfWeek => .isoDayOfWeek
  | dayOfYear => .dayOfYear
  | epoch => .epoch
  | decade => .decade
  | century => .century
  | millennium => .millennium

def finish? : UnitRange → Option TimeUnit
  | yearToMonth => some .month
  | dayToHour => some .hour
  | dayToMinute | hourToMinute => some .minute
  | dayToSecond | hourToSecond | minuteToSecond => some .second
  | _ => none

def last (range : UnitRange) : TimeUnit := range.finish?.getD range.start

def isYearMonth (range : UnitRange) : Bool := range.start = .year ∨ range.start = .month

def name (range : UnitRange) : Text :=
  match range.finish? with
  | none => range.start.name
  | some finish => range.start.name ++ "_TO_".toList ++ finish.name

def ofName? (name : Text) : Option UnitRange :=
  all.find? fun range => range.name = name

theorem ofName?_name (range : UnitRange) : ofName? range.name = some range := by
  cases range <;> decide

def pairDescription (start : TimeUnit) (finish? : Option TimeUnit) : Text :=
  '(' :: start.description ++ ", ".toList ++
    (finish?.map TimeUnit.description).getD "None".toList ++ [')']

def description (range : UnitRange) : Text :=
  "<TimeUnitRange.".toList ++ range.name ++ ": ".toList ++
    pairDescription range.start range.finish? ++ ['>']

end UnitRange

inductive UnsupportedRange where
  | extractFromDate (range : UnitRange)
  | extractFromTime (range : UnitRange)
  | floor (range : UnitRange)
  | ceil (range : UnitRange)
  | yearMonthText (range : UnitRange)
  | dayTimeText (range : UnitRange)
  | units (start : TimeUnit) (finish? : Option TimeUnit)
deriving DecidableEq, Repr

namespace UnsupportedRange

def operation : UnsupportedRange → Text
  | extractFromDate _ => "EXTRACT from DATE".toList
  | extractFromTime _ => "EXTRACT from TIME".toList
  | floor _ => "FLOOR".toList
  | ceil _ => "CEIL".toList
  | yearMonthText _ => "interval_year_month_to_string".toList
  | dayTimeText _ => "interval_day_time_to_string".toList
  | units _ _ => "TimeUnitRange.of".toList

def subject : UnsupportedRange → Text
  | extractFromDate range | extractFromTime range | floor range | ceil range
  | yearMonthText range | dayTimeText range => range.description
  | units start finish? => UnitRange.pairDescription start finish?

def message (error : UnsupportedRange) : Text :=
  error.operation ++ " does not support range ".toList ++ error.subject

end UnsupportedRange

namespace UnitRange

def ofUnits (start : TimeUnit) (finish? : Option TimeUnit) : Except UnsupportedRange UnitRange :=
  match all.find? fun range => range.start = start ∧ range.finish? = finish? with
  | some range => .ok range
  | none => .error (.units start finish?)

theorem ofUnits_start_finish? (range : UnitRange) :
    ofUnits range.start range.finish? = .ok range := by
  cases range <;> rfl

end UnitRange

end Almanac
