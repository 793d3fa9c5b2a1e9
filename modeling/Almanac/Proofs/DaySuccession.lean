import Mathlib
import Almanac.MonthIndex

/-! Julian day numbers as a count of the days of the calendar. The day after a date is found by
the length of its month alone, with no division, so that the closed forms of the count are
compared with the leap rule and the table of months. Main statements: numbers and valid dates
restore each other, and one day more is the next date, so that the order of numbers is the order
of years, months and days. -/

namespace Almanac.CalendarDate

def key (date : CalendarDate) : Int ×ₗ Int ×ₗ Int :=
  toLex (date.year, toLex (date.month, date.day))

theorem key_lt_iff {first second : CalendarDate} :
    first.key < second.key ↔ first.year < second.year ∨ first.year = second.year ∧
      (first.month < second.month ∨ first.month = second.month ∧ first.day < second.day) := by
  simp only [key, Prod.Lex.toLex_lt_toLex]

def nextDay (date : CalendarDate) : CalendarDate :=
  if date.day < daysInMonth date.year date.month then { date with day := date.day + 1 }
  else if date.month < 12 then ⟨date.year, date.month + 1, 1⟩
  else ⟨date.year + 1, 1, 1⟩

theorem valid_nextDay {date : CalendarDate} (h : date.Valid) : date.nextDay.Valid := by
  obtain ⟨low, high, first, last⟩ := h
  unfold nextDay
  split
  · exact ⟨low, high, by simp only; omega, by simp only; omega⟩
  · have next := daysInMonth_bounds date.year (date.month + 1)
    have january := daysInMonth_bounds (date.year + 1) 1
    split
    all_goals
      simp only [Valid]
      omega

theorem key_lt_nextDay (date : CalendarDate) : date.key < date.nextDay.key := by
  rw [key_lt_iff, nextDay]
  split
  · exact .inr ⟨rfl, .inr ⟨rfl, by simp only; omega⟩⟩
  · split
    · exact .inr ⟨rfl, .inl (by simp only; omega)⟩
    · exact .inl (by simp only; omega)

theorem toUnix_nextDay {date : CalendarDate} (h : date.Valid) :
    date.nextDay.toUnix = date.toUnix + 1 := by
  have turn := MonthIndex.firstDay_succ (MonthIndex.ofDate date)
  rw [MonthIndex.length_ofDate h] at turn
  rw [MonthIndex.toUnix_eq, MonthIndex.toUnix_eq]
  obtain ⟨low, high, first, last⟩ := h
  unfold nextDay
  split
  · simp only [MonthIndex.ofDate]
    omega
  -- the last day of a month comes to the first day of the next index, in December too
  · split
    · have index : MonthIndex.ofDate ⟨date.year, date.month + 1, 1⟩ =
          MonthIndex.ofDate date + 1 := by
        simp only [MonthIndex.ofDate]
        omega
      rw [index, turn]
      simp only
      omega
    · have index : MonthIndex.ofDate ⟨date.year + 1, 1, 1⟩ = MonthIndex.ofDate date + 1 := by
        simp only [MonthIndex.ofDate]
        omega
      rw [index, turn]
      simp only
      omega

theorem toJulian_nextDay {date : CalendarDate} (h : date.Valid) :
    date.nextDay.toJulian = date.toJulian + 1 := by
  have next := toUnix_nextDay h
  unfold toUnix at next
  omega

theorem ofJulian_succ (julian : Int) : ofJulian (julian + 1) = (ofJulian julian).nextDay := by
  have valid := valid_ofJulian julian
  have next := toJulian_nextDay valid
  rw [toJulian_ofJulian] at next
  rw [← next, ofJulian_toJulian (valid_nextDay valid)]

theorem key_ofJulian_strictMono : StrictMono fun julian => (ofJulian julian).key := by
  apply strictMono_int_of_lt_succ
  intro julian
  rw [ofJulian_succ]
  exact key_lt_nextDay _

theorem ofJulian_toJulian_inverse :
    (∀ julian, (ofJulian julian).Valid ∧ (ofJulian julian).toJulian = julian) ∧
      (∀ date, Valid date → ofJulian date.toJulian = date) ∧
      ∀ date, Valid date ↔ 1 ≤ date.month ∧ date.month ≤ 12 ∧ 1 ≤ date.day ∧
        ∃ length, monthLength? date.year date.month = some length ∧ date.day ≤ length := by
  refine ⟨fun julian => ⟨?_, ?_⟩, fun date valid => ?_, fun date => ?_⟩
  · exact valid_ofJulian julian
  · exact toJulian_ofJulian julian
  · exact ofJulian_toJulian valid
  · exact valid_iff_monthLength?

theorem ofJulian_toJulian_leapDay :
    Valid ⟨-400, 2, 29⟩ ∧ ofJulian (toJulian ⟨-400, 2, 29⟩) = ⟨-400, 2, 29⟩ :=
  ⟨by decide, ofJulian_toJulian_inverse.2.1 ⟨-400, 2, 29⟩ (by decide)⟩

theorem ofJulian_succ_and_order :
    (∀ julian, ofJulian (julian + 1) = (ofJulian julian).nextDay) ∧
      ∀ first second, first < second ↔ (ofJulian first).key < (ofJulian second).key := by
  refine ⟨ofJulian_succ, fun first second => ?_⟩
  exact (key_ofJulian_strictMono.lt_iff_lt).symm

end Almanac.CalendarDate
