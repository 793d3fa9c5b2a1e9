import Almanac.Proofs.PeriodFields

/-! Floors and ceilings of the dates of all years, those before year 0 included. In the covered
years they are the nearest beginnings of periods. Elsewhere division towards zero comes to a
multiple on the side of zero, which is past a negative number unless it divides the number, but
never past it by a whole divisor; so it is with the years that such a division finds. Main
statement: a ceiling is never before its date, and a floor is after its date in the years before
the covered ones, except in those that begin a span of years. -/

namespace Almanac.Arithmetic

theorem mul_tdiv_le_iff {divisor : Int} (positive : 0 < divisor) (dividend : Int) :
    divisor * dividend.tdiv divisor ≤ dividend ↔ 0 ≤ dividend ∨ divisor ∣ dividend := by
  rw [Int.tdiv_eq_ediv]
  split
  · next floored =>
    rw [Int.add_zero]
    exact iff_of_true (Int.mul_ediv_self_le positive.ne') floored
  · next raised =>
    rw [Int.sign_eq_one_of_pos positive, mul_add, mul_one]
    exact iff_of_false (not_le.2 (Int.lt_mul_ediv_self_add positive)) raised

theorem lt_mul_tdiv_add {divisor : Int} (positive : 0 < divisor) (dividend : Int) :
    dividend < divisor * dividend.tdiv divisor + divisor := by
  have quotient : dividend / divisor ≤ dividend.tdiv divisor := by
    rw [Int.tdiv_eq_ediv, Int.sign_eq_one_of_pos positive]
    split <;> omega
  calc dividend
    _ < divisor * (dividend / divisor) + divisor := Int.lt_mul_ediv_self_add positive
    _ ≤ divisor * dividend.tdiv divisor + divisor := by gcongr

end Almanac.Arithmetic

namespace Almanac.Period
open Arithmetic MonthIndex

section
variable {period : Period} {unixDate : Int}
  (covered : period.Covers (CalendarDate.ofUnix unixDate).year)
include covered

theorem isGreatest_floor :
    IsGreatest {date | period.Begins date ∧ date ≤ unixDate} (period.floor unixDate) := by
  rw [(floor_next_eq_start covered).1]
  exact isGreatest_start period unixDate

theorem floor_le_of_covers : period.floor unixDate ≤ unixDate := (isGreatest_floor covered).1.2

theorem lt_next_of_covers : unixDate < period.next unixDate := by
  rw [(floor_next_eq_start covered).2]
  exact lt_start_succ period unixDate

theorem isLeast_ceil :
    IsLeast {date | period.Begins date ∧ unixDate ≤ date} (period.ceil unixDate) := by
  unfold ceil
  split
  · next begins => exact isLeast_self ((floor_eq_self_iff covered).1 begins)
  · next inside =>
    rw [(floor_next_eq_start covered).2]
    exact isLeast_start_succ fun begins => inside ((floor_eq_self_iff covered).2 begins)

end

/-- The years whose dates are overrun by their floor: those before the covered years, save the
first year of a span. -/
def Overrun (period : Period) (year : Int) : Prop :=
  match period with
  | millennium => year < -999 ∧ year % 1000 ≠ 1
  | century => year < -99 ∧ year % 100 ≠ 1
  | decade => year < 0 ∧ year % 10 ≠ 0
  | _ => False

theorem newYear_le_iff {year unixDate : Int} :
    newYear year ≤ unixDate ↔ year ≤ (CalendarDate.ofUnix unixDate).year := by
  rw [newYear_eq_firstDay, le_year_iff]

theorem floor_le_iff (period : Period) (unixDate : Int) :
    period.floor unixDate ≤ unixDate ↔
      ¬period.Overrun (CalendarDate.ofUnix unixDate).year := by
  cases period with
  | millennium | century | decade =>
    simp only [floor, newYear_le_iff, lastYear, Overrun]
    generalize (CalendarDate.ofUnix unixDate).year = year
    have thousands := mul_tdiv_le_iff (show (0 : Int) < 1000 by decide) (year + (1000 - 1))
    have hundreds := mul_tdiv_le_iff (show (0 : Int) < 100 by decide) (year + (100 - 1))
    have tens := mul_tdiv_le_iff (show (0 : Int) < 10 by decide) year
    omega
  | year | quarter | month | week | day =>
    exact iff_of_true (floor_le_of_covers trivial) not_false

theorem lt_next (period : Period) (unixDate : Int) : unixDate < period.next unixDate := by
  cases period with
  | millennium | century | decade =>
    rw [← not_le]
    simp only [next, newYear_le_iff, lastYear]
    generalize (CalendarDate.ofUnix unixDate).year = year
    have thousands := lt_mul_tdiv_add (show (0 : Int) < 1000 by decide) (year + (1000 - 1))
    have hundreds := lt_mul_tdiv_add (show (0 : Int) < 100 by decide) (year + (100 - 1))
    have tens := lt_mul_tdiv_add (show (0 : Int) < 10 by decide) year
    omega
  | year | quarter | month | week | day => exact lt_next_of_covers trivial

theorem le_ceil (period : Period) (unixDate : Int) : unixDate ≤ period.ceil unixDate := by
  unfold ceil
  split
  · exact le_rfl
  · exact (lt_next period unixDate).le

/-- A date is never after its ceiling, and before its floor in the overrun years alone. -/
theorem le_ceil_and_floor_le_unless_overrun (period : Period) (unixDate : Int) :
    ∃ first next, floorDate period.range unixDate = .ok first ∧
      ceilDate period.range unixDate = .ok next ∧ unixDate ≤ next ∧
      (first ≤ unixDate ↔ ¬period.Overrun (CalendarDate.ofUnix unixDate).year) ∧
      (unixDate < first ↔ period.Overrun (CalendarDate.ofUnix unixDate).year) := by
  have side := floor_le_iff period unixDate
  refine ⟨_, _, floorDate_range period unixDate, ceilDate_range period unixDate,
    le_ceil period unixDate, side, ?_⟩
  rw [← not_le, side, not_not]

/-- A day of the year -2 is floored to the first day of the year 0. -/
example : floorDate .decade (-720000) = .ok (CalendarDate.toUnix ⟨0, 1, 1⟩) := by decide

end Almanac.Period
