import Mathlib
import Almanac.MonthShift

/-! Dates moved by months, as a function of the number of months. A moved date is the earlier of
two: its day counted on from the first of the month it comes to, and the first of the month after.
Each of them grows by the length of a month with every month more, and so does the moved date,
whether its month has the day or not. Main statements: every month more gives a later date, by 31
days at most. -/

namespace Almanac.MonthShift
open MonthIndex

theorem addMonths_eq_min (unixDate months : Int) :
    addMonths unixDate months =
      min (firstDay (ofDate (.ofUnix unixDate) + months) +
          ((CalendarDate.ofUnix unixDate).day - 1))
        (firstDay (ofDate (.ofUnix unixDate) + months + 1)) := by
  have turn := firstDay_succ (ofDate (.ofUnix unixDate) + months)
  simp only [addMonths]
  split <;> omega

theorem addMonths_zero (unixDate : Int) : addMonths unixDate 0 = unixDate := by
  have valid := CalendarDate.valid_ofUnix unixDate
  have inMonth := length_ofDate valid
  obtain ⟨-, -, -, last⟩ := valid
  rw [addMonths, Int.add_zero, inMonth, if_pos last, ← toUnix_eq, CalendarDate.toUnix_ofUnix]

theorem addMonths_strictMono (unixDate : Int) : StrictMono (addMonths unixDate) :=
  strictMono_int_of_lt_succ (addMonths_lt_succ unixDate)

theorem addMonths_succ_le (unixDate months : Int) :
    addMonths unixDate (months + 1) ≤ addMonths unixDate months + 31 := by
  rw [addMonths_eq_min, addMonths_eq_min, ← Int.add_assoc]
  generalize ofDate (.ofUnix unixDate) + months = index
  have first := firstDay_succ index
  have second := firstDay_succ (index + 1)
  have short := length_bounds index
  have nextShort := length_bounds (index + 1)
  omega

theorem addMonths_le_add (unixDate : Int) {months : Int} (h : 0 ≤ months) :
    addMonths unixDate months ≤ unixDate + 31 * months := by
  obtain ⟨count, rfl⟩ := Int.eq_ofNat_of_zero_le h
  clear h
  induction count with
  | zero =>
    rw [Int.natCast_zero, addMonths_zero]
    omega
  | succ count ih =>
    have step := addMonths_succ_le unixDate count
    rw [Int.natCast_add, Int.natCast_one]
    omega

end Almanac.MonthShift
