import Almanac.Calendar

/-!
Days of the week and ISO weeks, which begin on Monday and belong to the year that holds most of
their days. Only the last three days of December and the first four of January can lie in a week
of another year.
-/

namespace Almanac.IsoWeek

def daysSinceMonday (julian : Int) : Int := julian % 7

def daysSinceSunday (julian : Int) : Int := (julian + 1) % 7

def newYear (year : Int) : Int := CalendarDate.toJulian ⟨year, 1, 1⟩

theorem newYear_eq (year : Int) :
    newYear year = MarchYear.daysBefore (year + 4799) + 306 + marchEpochJulian := by
  have before : year + 4800 - 1 = year + 4799 := by omega
  simp only [newYear, CalendarDate.toJulian, MarchYear.daysBeforeMonth, Int.reduceSub,
    Int.reduceDiv, Int.reduceAdd, Int.reduceMul, before]
  omega

theorem newYear_succ (year : Int) :
    newYear (year + 1) = newYear year + if IsLeapYear year then 366 else 365 := by
  have next : year + 1 + 4799 = year + 4799 + 1 := by omega
  have leap : (year + 4799 + 1) % 4 = 0 ∧
      ((year + 4799 + 1) % 100 ≠ 0 ∨ (year + 4799 + 1) % 400 = 0) ↔ IsLeapYear year := by
    unfold IsLeapYear
    omega
  rw [newYear_eq, newYear_eq, next, MarchYear.daysBefore_succ]
  simp only [leap]
  split <;> omega

theorem newYear_succ_bounds (year : Int) :
    newYear year + 365 ≤ newYear (year + 1) ∧ newYear (year + 1) ≤ newYear year + 366 := by
  rw [newYear_succ]
  split <;> omega

/-- The Monday of week 1, which is the week that holds 4 January. -/
def firstMonday (year : Int) : Int :=
  newYear year + (11 - daysSinceSunday (newYear year)) % 7 - 3

theorem firstMonday_bounds (year : Int) :
    newYear year - 3 ≤ firstMonday year ∧ firstMonday year ≤ newYear year + 3 := by
  unfold firstMonday
  omega

theorem daysSinceMonday_firstMonday (year : Int) : daysSinceMonday (firstMonday year) = 0 := by
  unfold firstMonday daysSinceMonday daysSinceSunday
  omega

/-- A year has a week 53 if it starts on a Thursday, or on a Wednesday and is leap. -/
def weeksInYear (year : Int) : Int :=
  let first := daysSinceMonday (newYear year)
  if first = 3 ∨ (first = 2 ∧ IsLeapYear year) then 53 else 52

def weekSince (year julian : Int) : Int :=
  (julian - firstMonday year) / 7 + 1

def week (julian : Int) : Int :=
  let date := CalendarDate.ofJulian julian
  let weekday := daysSinceMonday julian + 1
  if date.month = 12 ∧ 28 < date.day then
    if 7 - weekday < 31 - date.day + 4 ∧ 4 ≤ 31 - date.day + weekday then
      weekSince date.year julian
    else 1
  else if date.month = 1 ∧ date.day < 5 then
    if 4 - date.day ≤ 7 - weekday ∧ -3 ≤ date.day - weekday then 1
    else weekSince (date.year - 1) julian
  else weekSince date.year julian

def year (julian : Int) : Int :=
  let date := CalendarDate.ofJulian julian
  if week julian = 1 ∧ date.month = 12 then date.year + 1
  else if date.month = 1 ∧ 50 < week julian then date.year - 1
  else date.year

end Almanac.IsoWeek
