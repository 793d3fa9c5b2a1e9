import Almanac.IsoWeek
import Almanac.Numeral

/-!
One month laid out by ISO weeks, one row a week. A row is labelled with its week and the year that
the week belongs to, so the weeks around New Year show which year that is; days of other months are
left blank. Main statements: every row has seven cells, and a month is shown unless it is none or a
number in its text is too long.
-/

namespace Almanac

structure WeekRow where
  week : Int
  year : Int
  /-- Days of the month from Monday to Sunday. -/
  days : List (Option Int)
deriving DecidableEq, Repr

structure MonthView where
  year : Int
  month : Int
  rows : List WeekRow
deriving DecidableEq, Repr

namespace MonthView

def rowOf (first last monday : Int) : WeekRow where
  week := IsoWeek.week (monday + epochJulian)
  year := IsoWeek.year (monday + epochJulian)
  days := (List.range 7).map fun (weekday : Nat) =>
    let day := monday + weekday
    if first ≤ day ∧ day ≤ last then some (CalendarDate.ofUnix day).day else none

theorem length_days_rowOf (first last monday : Int) :
    (rowOf first last monday).days.length = 7 := by
  simp [rowOf]

/-- The weeks from the one that holds the first day of the month to the one that holds its last. -/
def ofMonth? (year month : Int) : Option MonthView :=
  (monthLength? year month).map fun length =>
    let first := CalendarDate.toUnix ⟨year, month, 1⟩
    let last := first + length - 1
    let monday := first - IsoWeek.daysSinceMonday (first + epochJulian)
    let weeks := ((last - monday) / 7 + 1).toNat
    let row (week : Nat) := rowOf first last (monday + 7 * week)
    { year, month, rows := (List.range weeks).map row }

def labelText (row : WeekRow) : Text :=
  'W' :: Numeral.zeroPadded 2 row.week ++ ' ' :: Numeral.zeroPadded 4 row.year

def cellText (day? : Option Int) : Text :=
  ((day?.map Numeral.decimal).getD ['.']).leftpad 3 ' '

def line (label : Text) (cells : List Text) : Text :=
  label.leftpad 10 ' ' ++ "  ".toList ++ Text.join [' '] cells

def weekdayNames : List Text :=
  ["Mon".toList, "Tue".toList, "Wed".toList, "Thu".toList, "Fri".toList, "Sat".toList, "Sun".toList]

def text (view : MonthView) : Text :=
  let title := Numeral.zeroPadded 4 view.year ++ '-' :: Numeral.zeroPadded 2 view.month
  Text.join ['\n'] (title :: line [] weekdayNames ::
    view.rows.map fun row => line (labelText row) (row.days.map cellText))

inductive Fault where
  | digitLimit
  | noMonth
deriving DecidableEq, Repr

/-- Lays out a month. Its title is written before it is looked up, the labels after that. -/
def layOut (year month : Int) : Except Fault Text :=
  if Numeral.digitCount year ≤ Numeral.maxDigits ∧
      Numeral.digitCount month ≤ Numeral.maxDigits then
    match ofMonth? year month with
    | none => .error .noMonth
    | some view =>
      if view.rows.all fun row => Numeral.digitCount row.year ≤ Numeral.maxDigits then
        .ok view.text
      else .error .digitLimit
  else .error .digitLimit

end MonthView

end Almanac
