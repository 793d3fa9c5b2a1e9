import Mathlib
import Almanac.MonthIndex

/-! Months as a grid on the count of days. The first days of months grow with their index, and
every date lies between the first day of its own month and that of the next. Main statements: a
month begins on a date or before it if and only if it is not a later one than the date's month, and
a valid date is found again from its count of days. -/

namespace Almanac.MonthIndex

def ofUnix (unixDate : Int) : Int := ofDate (CalendarDate.ofUnix unixDate)

theorem firstDay_strictMono : StrictMono firstDay := by
  apply strictMono_int_of_lt_succ
  intro index
  have turn := firstDay_succ index
  have bounds := length_bounds index
  omega

theorem toUnix_first (year month : Int) :
    CalendarDate.toUnix ⟨year, month, 1⟩ = firstDay (12 * year + month - 1) := by
  rw [toUnix_eq]
  exact Int.add_zero _

theorem eq_firstDay_add_day (unixDate : Int) :
    unixDate = firstDay (ofUnix unixDate) + ((CalendarDate.ofUnix unixDate).day - 1) := by
  rw [ofUnix, ← toUnix_eq, CalendarDate.toUnix_ofUnix]

theorem firstDay_ofUnix_le (unixDate : Int) : firstDay (ofUnix unixDate) ≤ unixDate := by
  have count := eq_firstDay_add_day unixDate
  obtain ⟨-, -, first, -⟩ := CalendarDate.valid_ofUnix unixDate
  omega

theorem lt_firstDay_ofUnix_succ (unixDate : Int) : unixDate < firstDay (ofUnix unixDate + 1) := by
  have count := eq_firstDay_add_day unixDate
  have valid := CalendarDate.valid_ofUnix unixDate
  have turn := firstDay_succ (ofUnix unixDate)
  have inMonth : length (ofUnix unixDate) = _ := length_ofDate valid
  obtain ⟨-, -, -, last⟩ := valid
  omega

theorem firstDay_le_iff {index unixDate : Int} :
    firstDay index ≤ unixDate ↔ index ≤ ofUnix unixDate := by
  constructor
  · intro h
    have before := firstDay_strictMono.lt_iff_lt.1 (h.trans_lt (lt_firstDay_ofUnix_succ unixDate))
    omega
  · intro h
    exact (firstDay_strictMono.monotone h).trans (firstDay_ofUnix_le unixDate)

theorem firstDay_eq_iff {index unixDate : Int} :
    firstDay index = unixDate ↔
      ofUnix unixDate = index ∧ (CalendarDate.ofUnix unixDate).day = 1 := by
  have count := eq_firstDay_add_day unixDate
  constructor
  · intro h
    have notAfter := firstDay_le_iff.1 h.le
    have notBefore := firstDay_strictMono.le_iff_le.1 ((firstDay_ofUnix_le unixDate).trans h.ge)
    have same : ofUnix unixDate = index := notBefore.antisymm notAfter
    refine ⟨same, ?_⟩
    rw [same] at count
    omega
  · rintro ⟨same, first⟩
    rw [same, first] at count
    omega

theorem twelve_mul_year_bounds (unixDate : Int) :
    12 * (CalendarDate.ofUnix unixDate).year ≤ ofUnix unixDate ∧
      ofUnix unixDate < 12 * (CalendarDate.ofUnix unixDate).year + 12 := by
  obtain ⟨low, high, -, -⟩ := CalendarDate.valid_ofUnix unixDate
  unfold ofUnix ofDate
  omega

theorem le_year_iff {year unixDate : Int} :
    year ≤ (CalendarDate.ofUnix unixDate).year ↔ firstDay (12 * year) ≤ unixDate := by
  have bounds := twelve_mul_year_bounds unixDate
  rw [firstDay_le_iff]
  omega

end Almanac.MonthIndex

namespace Almanac.CalendarDate

theorem ofUnix_toUnix {date : CalendarDate} (h : date.Valid) : ofUnix date.toUnix = date := by
  rw [ofUnix, toUnix, Int.sub_add_cancel, ofJulian_toJulian h]

end Almanac.CalendarDate
