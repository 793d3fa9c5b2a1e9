import Almanac.Calendar

/-!
Months numbered one after the other, index 0 being January of year 0, so that a number of months
is added to a date by one addition. Main statements: a month ends where the next one begins, and a
date whose month lies outside 1..12 is counted as the month that its index names.
-/

namespace Almanac.MonthIndex

def ofDate (date : CalendarDate) : Int :=
  12 * date.year + date.month - 1

def year (index : Int) : Int := index / 12

def month (index : Int) : Int := index % 12 + 1

def length (index : Int) : Int :=
  daysInMonth (year index) (month index)

def firstDay (index : Int) : Int :=
  CalendarDate.toUnix ⟨year index, month index, 1⟩

theorem month_bounds (index : Int) : 1 ≤ month index ∧ month index ≤ 12 := by
  unfold month
  omega

theorem year_ofDate {date : CalendarDate} (h : date.Valid) : year (ofDate date) = date.year := by
  obtain ⟨low, high, -, -⟩ := h
  unfold year ofDate
  omega

theorem month_ofDate {date : CalendarDate} (h : date.Valid) : month (ofDate date) = date.month := by
  obtain ⟨low, high, -, -⟩ := h
  unfold month ofDate
  omega

theorem length_ofDate {date : CalendarDate} (h : date.Valid) :
    length (ofDate date) = daysInMonth date.year date.month := by
  rw [length, year_ofDate h, month_ofDate h]

theorem length_bounds (index : Int) : 28 ≤ length index ∧ length index ≤ 31 :=
  daysInMonth_bounds _ _

theorem firstDay_succ (index : Int) : firstDay (index + 1) = firstDay index + length index := by
  obtain ⟨y, m, rfl, low, high⟩ : ∃ y m, index = 12 * y + m ∧ 0 ≤ m ∧ m < 12 :=
    ⟨index / 12, index % 12, by omega, by omega, by omega⟩
  have twelve : m = 0 ∨ m = 1 ∨ m = 2 ∨ m = 3 ∨ m = 4 ∨ m = 5 ∨ m = 6 ∨ m = 7 ∨ m = 8 ∨ m = 9 ∨
      m = 10 ∨ m = 11 := by omega
  have march := MarchYear.daysBefore_succ (y + 4799)
  have leap : y + 4799 + 1 = y + 4800 := by omega
  have here : (12 * y + m) / 12 = y ∧ (12 * y + m) % 12 = m := by omega
  have next : (12 * y + m + 1) / 12 = (if m = 11 then y + 1 else y) ∧
      (12 * y + m + 1) % 12 = (if m = 11 then 0 else m + 1) := by split <;> omega
  simp only [firstDay, length, daysInMonth, IsLeapYear, year, month, CalendarDate.toUnix,
    CalendarDate.toJulian, MarchYear.daysBeforeMonth, here.1, here.2, next.1, next.2]
  have before : y + 4800 - 1 = y + 4799 := by omega
  have after : y + 1 + 4800 - 1 = y + 4800 := by omega
  have same : ((y + 4800) % 4 = 0 ∧ ((y + 4800) % 100 ≠ 0 ∨ (y + 4800) % 400 = 0)) ↔
      (y % 4 = 0 ∧ (y % 100 ≠ 0 ∨ y % 400 = 0)) := by omega
  simp only [leap, same] at march
  rcases twelve with rfl | rfl | rfl | rfl | rfl | rfl | rfl | rfl | rfl | rfl | rfl | rfl
  case inr.inl =>
    simp only [Int.reduceAdd, Int.reduceSub, Int.reduceDiv, Int.reduceMul, Int.reduceEq, if_true,
      if_false, before, Int.sub_zero]
    split at march
    all_goals
      simp_all
      omega
  all_goals
    simp [before, after]
    omega

theorem firstDay_add (index : Int) {months : Int} (h : 0 ≤ months) :
    firstDay index + 28 * months ≤ firstDay (index + months) ∧
      firstDay (index + months) ≤ firstDay index + 31 * months := by
  obtain ⟨count, rfl⟩ := Int.eq_ofNat_of_zero_le h
  clear h
  induction count with
  | zero => simp
  | succ count ih =>
    have turn := firstDay_succ (index + count)
    have bounds := length_bounds (index + count)
    rw [Int.add_assoc] at turn
    rw [Int.natCast_add, Int.natCast_one]
    omega

theorem toUnix_eq (date : CalendarDate) :
    date.toUnix = firstDay (ofDate date) + (date.day - 1) := by
  obtain ⟨y, m, d⟩ := date
  have carry : (14 - m) / 12 = (14 - ((12 * y + m - 1) % 12 + 1)) / 12 -
      ((12 * y + m - 1) / 12 - y) := by omega
  simp only [ofDate, firstDay, year, month, CalendarDate.toUnix, CalendarDate.toJulian]
  have sameYear : y + 4800 - (14 - m) / 12 = (12 * y + m - 1) / 12 + 4800 -
      (14 - ((12 * y + m - 1) % 12 + 1)) / 12 := by omega
  have sameMonth : m + 12 * ((14 - m) / 12) - 3 = (12 * y + m - 1) % 12 + 1 +
      12 * ((14 - ((12 * y + m - 1) % 12 + 1)) / 12) - 3 := by omega
  rw [sameYear, sameMonth]
  omega

end Almanac.MonthIndex
