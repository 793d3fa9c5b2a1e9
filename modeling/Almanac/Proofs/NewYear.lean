import Almanac.IsoWeek
import Almanac.MonthIndex

/-! The year of a day number found between two New Years. How far a date lies from either New Year
is bounded by its month and day alone, exactly so in January and in December. Main statement: a
day belongs to a year if and only if it lies from that year's 1 January on and before the next. -/

namespace Almanac.IsoWeek

theorem newYear_eq_firstDay (year : Int) :
    newYear year = MonthIndex.firstDay (12 * year) + epochJulian := by
  have january := MonthIndex.toUnix_eq ⟨year, 1, 1⟩
  have index : MonthIndex.ofDate ⟨year, 1, 1⟩ = 12 * year := by
    simp only [MonthIndex.ofDate]
    omega
  rw [index] at january
  simp only [CalendarDate.toUnix] at january
  unfold newYear
  omega

theorem eq_firstDay_add {julian : Int} {date : CalendarDate}
    (h : CalendarDate.ofJulian julian = date) :
    julian = MonthIndex.firstDay (MonthIndex.ofDate date) + (date.day - 1) + epochJulian := by
  subst h
  rw [← MonthIndex.toUnix_eq, CalendarDate.toUnix, CalendarDate.toJulian_ofJulian]
  omega

theorem since_newYear {julian : Int} {date : CalendarDate}
    (h : CalendarDate.ofJulian julian = date) :
    newYear date.year + 28 * (date.month - 1) + (date.day - 1) ≤ julian ∧
      julian ≤ newYear date.year + 31 * (date.month - 1) + (date.day - 1) := by
  have count := eq_firstDay_add h
  obtain ⟨low, -, -, -⟩ := h ▸ CalendarDate.valid_ofJulian julian
  have passed : 0 ≤ date.month - 1 := by omega
  have months := MonthIndex.firstDay_add (12 * date.year) passed
  have index : 12 * date.year + (date.month - 1) = MonthIndex.ofDate date := by
    unfold MonthIndex.ofDate
    omega
  rw [index] at months
  rw [newYear_eq_firstDay]
  omega

theorem until_newYear {julian : Int} {date : CalendarDate}
    (h : CalendarDate.ofJulian julian = date) :
    julian + (daysInMonth date.year date.month - date.day) + 28 * (12 - date.month) <
        newYear (date.year + 1) ∧
      newYear (date.year + 1) ≤ julian + 1 +
        (daysInMonth date.year date.month - date.day) + 31 * (12 - date.month) := by
  have count := eq_firstDay_add h
  have valid := h ▸ CalendarDate.valid_ofJulian julian
  have turn := MonthIndex.firstDay_succ (MonthIndex.ofDate date)
  rw [MonthIndex.length_ofDate valid] at turn
  obtain ⟨-, high, -, -⟩ := valid
  have left : 0 ≤ 12 - date.month := by omega
  have months := MonthIndex.firstDay_add (MonthIndex.ofDate date + 1) left
  have index : MonthIndex.ofDate date + 1 + (12 - date.month) = 12 * (date.year + 1) := by
    unfold MonthIndex.ofDate
    omega
  rw [index] at months
  rw [newYear_eq_firstDay]
  omega

theorem newYear_mono {first second : Int} (h : first ≤ second) :
    newYear first ≤ newYear second := by
  rw [newYear_eq, newYear_eq]
  have := MarchYear.daysBefore_le (show first + 4799 ≤ second + 4799 by omega)
  omega

theorem year_ofJulian_eq_iff {julian year : Int} :
    (CalendarDate.ofJulian julian).year = year ↔
      newYear year ≤ julian ∧ julian < newYear (year + 1) := by
  generalize h : CalendarDate.ofJulian julian = date
  obtain ⟨low, high, first, last⟩ := h ▸ CalendarDate.valid_ofJulian julian
  have since := since_newYear h
  have next := until_newYear h
  constructor
  · rintro rfl
    omega
  -- two years that both hold the day can lie neither before nor after each other
  · rintro ⟨lower, upper⟩
    rcases Int.lt_trichotomy date.year year with before | same | after
    · have := newYear_mono (show date.year + 1 ≤ year by omega)
      omega
    · exact same
    · have := newYear_mono (show year + 1 ≤ date.year by omega)
      omega

end Almanac.IsoWeek
