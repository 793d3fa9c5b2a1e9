import Almanac.Field
import Almanac.IntervalText
import Almanac.IsoDate
import Almanac.MonthShift
import Almanac.MonthView
import Almanac.Period
import Almanac.Table

/-!
Sections of a report that runs the library on recorded cases and prints what it answers beside what
is expected. Cases are worked off in order, and the first one that cannot be evaluated ends a
section.
-/

namespace Almanac.Report

inductive Fault where
  | unknownRange
  | badDate
  | unsupported (error : UnsupportedRange)
  | unreadable (error : Literal.ReadError)
  | unwritable (fault : Numeral.WriteFault)
  | noMonth
deriving DecidableEq, Repr

abbrev Section := Except Fault (List Text)

def rangeNamed (name : Text) : Except Fault UnitRange :=
  match UnitRange.ofName? name with
  | some range => .ok range
  | none => .error .unknownRange

def isoDate (text : Text) : Except Fault Int :=
  match IsoDate.read? text with
  | some unixDate => .ok unixDate
  | none => .error .badDate

def supported {α : Type} (answer : Except UnsupportedRange α) : Except Fault α :=
  answer.mapError .unsupported

def readable {α : Type} (answer : Except Literal.ReadError α) : Except Fault α :=
  answer.mapError .unreadable

def writable (answer : Except Numeral.WriteFault Text) : Except Fault Text :=
  answer.mapError .unwritable

def interval (answer : Except IntervalText.Fault Text) : Except Fault Text :=
  answer.mapError fun
    | .unsupported error => .unsupported error
    | .unwritable fault => .unwritable fault

def laidOut (answer : Except MonthView.Fault Text) : Except Fault Text :=
  answer.mapError fun
    | .digitLimit => .unwritable .digitLimit
    | .noMonth => .noMonth

def numeral (n : Int) : Except Fault Text :=
  writable (Numeral.limited n 0 (Numeral.decimal n))

def verdict (agrees : Bool) : Text := if agrees then "OK".toList else "FAIL".toList

def caseTable {α : Type} (title : Text) (notes headers : List Text) (cases : List α)
    (row : α → Except Fault (List Text)) : Section := do
  let rows ← cases.mapM row
  return Table.heading title ++ notes ++ (Table.lines? headers rows 4).getD []

def columns (headers : List String) : List Text := headers.map String.toList

structure Reference where
  epochJulian : Int
  millisPerDay : Int
  timestamps : List (Text × Int)

def reference (reference : Reference) : Section := do
  let epochJulian ← numeral reference.epochJulian
  let millisPerDay ← numeral reference.millisPerDay
  let named ← caseTable "Named Timestamps".toList [] (columns ["Name", "Millis", "Literal"])
    reference.timestamps fun (name, timestamp) => do
      return [name, ← numeral timestamp, ← writable (Literal.timestampText timestamp 0)]
  return Table.banner "REFERENCE DATA".toList ++
    [[], "    Epoch:          Thursday 1970-01-01".toList,
      "    Epoch Julian:   ".toList ++ epochJulian,
      "    Millis/day:     ".toList ++ millisPerDay] ++
    named ++ Table.heading "Quick Formulas".toList ++
    ["    date      = julian - 2440588".toList,
      "    timestamp = date * 86400000 + millis_of_day".toList,
      "    Example: 2000-02-28 = 11015 days = 951696000000 ms".toList]

structure DateCase where
  id : Text
  date : CalendarDate
  expected : Int

structure LeapCase where
  year : Int
  expected : Bool

structure JulianCases where
  julian : List DateCase
  unix : List DateCase
  leapYears : List LeapCase

def dateParts (date : CalendarDate) : Except Fault Text := do
  let parts ← [date.year, date.month, date.day].mapM numeral
  return Text.join ['-'] parts

def julian (cases : JulianCases) : Section := do
  let numbers ← caseTable "Function: ymd_to_julian(year, month, day) -> int".toList []
    (columns ["ID", "Date", "Expected", "Actual", ""]) cases.julian fun s => do
      let actual := s.date.toJulian
      return [s.id, ← writable (Literal.julianText s.expected), ← numeral s.expected,
        ← numeral actual, verdict (actual = s.expected)]
  let dates ← caseTable "Function: ymd_to_unix_date(year, month, day) -> int".toList []
    (columns ["ID", "Y-M-D", "Expected", "Actual", ""]) cases.unix fun s => do
      let actual := s.date.toUnix
      return [s.id, ← dateParts s.date, ← numeral s.expected, ← numeral actual,
        verdict (actual = s.expected)]
  let years ← caseTable "Function: is_leap_year(year) -> bool".toList []
    (columns ["Year", "Leap?", ""]) cases.leapYears fun s => do
      return [← numeral s.year, Text.ofBool s.expected,
        verdict (decide (IsLeapYear s.year) = s.expected)]
  return Table.banner "LAYER 1: JULIAN DAY NUMBERS".toList ++ numbers ++ dates ++ years

structure FieldCase where
  id : Text
  range : Text
  date : CalendarDate
  expected : Int

def newYearMonths : List (Int × Int) := [(2004, 12), (2005, 1), (2021, 1)]

def fields (cases : List FieldCase) : Section := do
  let answers ← caseTable "Function: unix_date_extract(range, date) -> int".toList []
    (columns ["ID", "Range", "Date", "Expected", "Actual", ""]) cases fun s => do
      let unixDate := s.date.toUnix
      let actual ← supported (Field.extractDate (← rangeNamed s.range) unixDate)
      return [s.id, s.range, ← writable (Literal.dateText unixDate), ← numeral s.expected,
        ← numeral actual, verdict (actual = s.expected)]
  let months ← newYearMonths.mapM fun (year, month) => laidOut (MonthView.layOut year month)
  return Table.banner "LAYER 2: EXTRACT".toList ++ answers ++
    Table.heading "ISO weeks around New Year".toList ++
    ["    Days before week 1 belong to the last week of the previous ISO year.".toList, []] ++
    months.flatMap fun month => [month, []]

structure RoundingCase where
  id : Text
  range : Text
  date : Text
  floor : Text
  ceil : Text

def rounding (cases : List RoundingCase) : Section := do
  let answers ← caseTable "Function: unix_date_floor / unix_date_ceil(range, date) -> int".toList
    ["    A date already on a period boundary is its own ceiling.".toList, []]
    (columns ["ID", "Range", "Date", "Floor", "Ceil", ""]) cases fun s => do
      let range ← rangeNamed s.range
      let unixDate ← isoDate s.date
      let floor ← writable (Literal.dateText (← supported (Period.floorDate range unixDate)))
      let ceil ← writable (Literal.dateText (← supported (Period.ceilDate range unixDate)))
      return [s.id, s.range, s.date, floor, ceil, verdict (floor = s.floor ∧ ceil = s.ceil)]
  return Table.banner "LAYER 2: FLOOR / CEIL".toList ++ answers

inductive ExpectedDate where
  | unixDate (unixDate : Int)
  | iso (text : Text)

def ExpectedDate.resolve : ExpectedDate → Except Fault Int
  | .unixDate n => .ok n
  | .iso text => isoDate text

structure DateTextCase where
  id : Text
  text : Text
  expected : ExpectedDate

structure TimestampTextCase where
  id : Text
  text : Text
  millis : Int

structure YearMonthCase where
  id : Text
  months : Int
  range : Text
  expected : Text
  notes : Text

structure DayTimeCase where
  id : Text
  millis : Int
  range : Text
  scale : Int
  expected : Text

structure LiteralCases where
  dates : List DateTextCase
  timestamps : List TimestampTextCase
  yearMonths : List YearMonthCase
  dayTimes : List DayTimeCase

def literals (cases : LiteralCases) : Section := do
  let dates ← caseTable "Function: date_string_to_unix_date(text) -> int".toList []
    (columns ["ID", "Text", "Expected", "Actual", "Formatted", ""]) cases.dates fun s => do
      let expected ← s.expected.resolve
      let actual ← readable (Literal.readDate s.text)
      return [s.id, Quoted.quote s.text, ← numeral expected, ← numeral actual,
        ← writable (Literal.dateText actual), verdict (actual = expected)]
  let timestamps ← caseTable "Function: timestamp_string_to_unix_date(text) -> int".toList []
    (columns ["ID", "Text", "Expected", "Actual", ""]) cases.timestamps fun s => do
      let actual ← readable (Literal.readTimestamp s.text)
      return [s.id, Quoted.quote s.text, ← numeral s.millis, ← numeral actual,
        verdict (actual = s.millis)]
  let yearMonths ← caseTable
    "Function: interval_year_month_to_string(months, range) -> str".toList []
    (columns ["ID", "Months", "Range", "Result", "", "Notes"]) cases.yearMonths fun s => do
      let actual ← interval (IntervalText.writeYearMonth s.months (← rangeNamed s.range))
      return [s.id, ← numeral s.months, s.range, actual, verdict (actual = s.expected), s.notes]
  let dayTimes ← caseTable
    "Function: interval_day_time_to_string(millis, range, scale) -> str".toList []
    (columns ["ID", "Millis", "Range", "Scale", "Result", ""]) cases.dayTimes fun s => do
      let actual ← interval (IntervalText.writeDayTime s.millis (← rangeNamed s.range) s.scale)
      return [s.id, ← numeral s.millis, s.range, ← numeral s.scale, actual,
        verdict (actual = s.expected)]
  return Table.banner "LAYER 3: LITERALS".toList ++ dates ++ timestamps ++ yearMonths ++ dayTimes

structure ShiftCase where
  id : Text
  date : Text
  months : Int
  expected : Text
  notes : Text

structure CountCase where
  id : Text
  date0 : Text
  date1 : Text
  expected : Int

structure MonthCases where
  shifts : List ShiftCase
  counts : List CountCase

def months (cases : MonthCases) : Section := do
  let shifts ← caseTable "Function: add_months(date, months) -> int".toList
    ["    A day the target month lacks rolls to the 1st of the month after.".toList, []]
    (columns ["ID", "Date", "Months", "Result", "", "Notes"]) cases.shifts fun s => do
      let shifted := MonthShift.addMonths (← isoDate s.date) s.months
      let actual ← writable (Literal.dateText shifted)
      return [s.id, s.date, ← numeral s.months, actual, verdict (actual = s.expected), s.notes]
  let counts ← caseTable "Function: subtract_months(date0, date1) -> int".toList []
    (columns ["ID", "Date0", "Date1", "Expected", "Actual", ""]) cases.counts fun s => do
      let actual := (MonthShift.subtractMonths (← isoDate s.date0) (← isoDate s.date1)).1
      return [s.id, s.date0, s.date1, ← numeral s.expected, ← numeral actual,
        verdict (actual = s.expected)]
  return Table.banner "LAYER 4: MONTH ARITHMETIC".toList ++ shifts ++ counts

end Almanac.Report
