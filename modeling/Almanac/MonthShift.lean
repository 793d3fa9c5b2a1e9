import Almanac.MonthIndex
import Almanac.Numeral
import Almanac.Timestamp

/-!
Dates moved by months and months counted between dates. A moved date keeps its day if the month it
comes to has that day, and otherwise rolls over to the first of the month after. Main statements:
one month more is always a later date, so that the count of months between two dates, which probes
upwards from an estimate, comes to an end.
-/

namespace Almanac.MonthShift

def addMonths (unixDate months : Int) : Int :=
  let date := CalendarDate.ofUnix unixDate
  let index := MonthIndex.ofDate date + months
  if date.day ≤ MonthIndex.length index then MonthIndex.firstDay index + (date.day - 1)
  else MonthIndex.firstDay (index + 1)

def addMonthsTimestamp (timestamp months : Int) : Int :=
  Timestamp.onDate (addMonths (Timestamp.date timestamp) months) (Timestamp.time timestamp)

theorem addMonths_lt_succ (unixDate months : Int) :
    addMonths unixDate months < addMonths unixDate (months + 1) := by
  have valid := CalendarDate.valid_ofJulian (unixDate + epochJulian)
  have first := MonthIndex.firstDay_succ (MonthIndex.ofDate (.ofUnix unixDate) + months)
  have second := MonthIndex.firstDay_succ (MonthIndex.ofDate (.ofUnix unixDate) + months + 1)
  have short := MonthIndex.length_bounds (MonthIndex.ofDate (.ofUnix unixDate) + months)
  have nextShort := MonthIndex.length_bounds (MonthIndex.ofDate (.ofUnix unixDate) + months + 1)
  simp only [addMonths, ← Int.add_assoc]
  simp only [CalendarDate.Valid, CalendarDate.ofUnix] at *
  omega

/-- The months to add to the earlier date, from the given number on, before the next month passes
the later date or the month itself has reached it. -/
def probe (later earlier months : Int) : Int :=
  if later ≤ addMonths earlier months ∨ later < addMonths earlier (months + 1) then months
  else probe later earlier (months + 1)
termination_by (later - addMonths earlier months).toNat
decreasing_by
  have := addMonths_lt_succ earlier months
  omega

/-- How the months between two dates were counted: the dates in order, the number of months the
count began with, and the number it came to. -/
structure Count where
  later : Int
  earlier : Int
  estimate : Int
  months : Int
deriving DecidableEq, Repr

/-- No month has more than 31 days, so the estimate is not too large. -/
def countMonths (later earlier : Int) : Count :=
  let estimate := (later - earlier) / 31
  { later, earlier, estimate, months := probe later earlier estimate }

def Count.message (count : Count) : Text :=
  "subtract_months(".toList ++ Numeral.decimal count.later ++ ", ".toList ++
    Numeral.decimal count.earlier ++ "): estimate ".toList ++ Numeral.decimal count.estimate ++
    ", probed to ".toList ++ Numeral.decimal count.months

/-- Whole months from the second date to the first, negative if the first is the earlier one, and
the count behind them. -/
def subtractMonths (date0 date1 : Int) : Int × Count :=
  if date0 < date1 then
    let count := countMonths date1 date0
    (-count.months, count)
  else
    let count := countMonths date0 date1
    (count.months, count)

/-- Whole months between timestamps: the last month is complete only when its time of day has been
reached as well. -/
def subtractMonthsTimestamp (timestamp0 timestamp1 : Int) : Int × Count :=
  let date0 := Timestamp.date timestamp0
  let date1 := Timestamp.date timestamp1
  let (months, count) := subtractMonths date0 date1
  if addMonths date1 months = date0 ∧ Timestamp.time timestamp0 < Timestamp.time timestamp1 then
    (months - 1, count)
  else (months, count)

end Almanac.MonthShift
