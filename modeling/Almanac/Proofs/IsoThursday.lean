import Almanac.Field
import Almanac.Proofs.NewYear

/-! ISO weeks by their Thursday. The week's number and year are found without looking at the
Thursday; here both are shown to be those of its Thursday, which is the rule of the standard. At
New Year the comparison of day and weekday asks on which side of 1 January the Thursday lies.
Main statement: the ISO year of a day is the calendar year of its week's Thursday, and the week's
number is one more than the complete weeks of that year before the Thursday. -/

namespace Almanac.IsoWeek

def thursday (julian : Int) : Int := julian - daysSinceMonday julian + 3

def thursdayYear (julian : Int) : Int := (CalendarDate.ofJulian (thursday julian)).year

theorem weekSince_eq (year julian : Int) :
    weekSince year julian = (thursday julian - newYear year) / 7 + 1 := by
  simp only [weekSince, firstMonday, thursday, daysSinceMonday, daysSinceSunday]
  omega

theorem weekSince_eq_one_iff {year julian : Int} :
    weekSince year julian = 1 ↔
      newYear year ≤ thursday julian ∧ thursday julian < newYear year + 7 := by
  rw [weekSince_eq]
  omega

theorem thursday_bounds (julian : Int) :
    julian - 3 ≤ thursday julian ∧ thursday julian ≤ julian + 3 := by
  unfold thursday daysSinceMonday
  omega

theorem thursdayYear_eq_iff {julian year : Int} :
    thursdayYear julian = year ↔
      newYear year ≤ thursday julian ∧ thursday julian < newYear (year + 1) :=
  year_ofJulian_eq_iff

theorem thursdayYear_december {julian : Int} {date : CalendarDate}
    (h : CalendarDate.ofJulian julian = date) (december : date.month = 12) :
    thursdayYear julian =
      if 4 ≤ 31 - date.day + (daysSinceMonday julian + 1) then date.year else date.year + 1 := by
  obtain ⟨-, -, first, last⟩ := h ▸ CalendarDate.valid_ofJulian julian
  have since := since_newYear h
  have next := until_newYear h
  have days : daysInMonth date.year 12 = 31 := by simp [daysInMonth]
  have far := newYear_succ_bounds (date.year + 1)
  have near := thursday_bounds julian
  rw [december, days] at last next
  rw [december] at since
  rw [thursdayYear_eq_iff]
  unfold thursday at *
  split <;> omega

theorem thursdayYear_january {julian : Int} {date : CalendarDate}
    (h : CalendarDate.ofJulian julian = date) (january : date.month = 1) :
    thursdayYear julian =
      if -3 ≤ date.day - (daysSinceMonday julian + 1) then date.year else date.year - 1 := by
  obtain ⟨-, -, first, last⟩ := h ▸ CalendarDate.valid_ofJulian julian
  have since := since_newYear h
  have next := until_newYear h
  have back := newYear_succ_bounds (date.year - 1)
  have near := thursday_bounds julian
  rw [january] at since next last
  rw [Int.sub_add_cancel] at back
  rw [thursdayYear_eq_iff]
  unfold thursday at *
  split
  · omega
  · rw [Int.sub_add_cancel]
    omega

theorem thursdayYear_inside {julian : Int} {date : CalendarDate}
    (h : CalendarDate.ofJulian julian = date) (notLate : ¬(date.month = 12 ∧ 28 < date.day))
    (notEarly : ¬(date.month = 1 ∧ date.day < 5)) : thursdayYear julian = date.year := by
  obtain ⟨low, high, first, last⟩ := h ▸ CalendarDate.valid_ofJulian julian
  have since := since_newYear h
  have next := until_newYear h
  have near := thursday_bounds julian
  have days : date.month = 12 → daysInMonth date.year date.month = 31 := by
    intro december
    simp [daysInMonth, december]
  rw [thursdayYear_eq_iff]
  omega

theorem thursdayYear_cases {julian : Int} {date : CalendarDate}
    (h : CalendarDate.ofJulian julian = date) :
    thursdayYear julian = date.year ∨
      (date.month = 12 ∧ thursdayYear julian = date.year + 1) ∨
      (date.month = 1 ∧ thursdayYear julian = date.year - 1) := by
  by_cases december : date.month = 12
  · rw [thursdayYear_december h december]
    split
    · exact .inl rfl
    · exact .inr (.inl ⟨december, rfl⟩)
  · by_cases january : date.month = 1
    · rw [thursdayYear_january h january]
      split
      · exact .inl rfl
      · exact .inr (.inr ⟨january, rfl⟩)
    · exact .inl (thursdayYear_inside h (fun both => december both.1) fun both => january both.1)

theorem week_eq (julian : Int) : week julian = weekSince (thursdayYear julian) julian := by
  generalize h : CalendarDate.ofJulian julian = date
  have since := since_newYear h
  have next := until_newYear h
  simp only [week, h]
  split
  · next late =>
    have year := thursdayYear_december h late.1
    have near := thursday_bounds julian
    have last : date.day ≤ daysInMonth date.year date.month :=
      (h ▸ CalendarDate.valid_ofJulian julian).2.2.2
    split
    · rw [year, if_pos (by omega)]
    · rw [if_neg (by omega)] at year
      have inside := thursdayYear_eq_iff.mp year
      rw [year, eq_comm, weekSince_eq_one_iff]
      omega
  · next notLate =>
    split
    · next early =>
      have year := thursdayYear_january h early.1
      split
      · rw [if_pos (by omega)] at year
        have inside := thursdayYear_eq_iff.mp year
        rw [year, eq_comm, weekSince_eq_one_iff]
        unfold thursday daysSinceMonday at *
        omega
      · rw [year, if_neg (by omega)]
    · next notEarly => rw [thursdayYear_inside h notLate notEarly]

theorem week_eq_one_iff {julian : Int} {date : CalendarDate}
    (h : CalendarDate.ofJulian julian = date) (december : date.month = 12) :
    week julian = 1 ↔ thursdayYear julian = date.year + 1 := by
  obtain ⟨-, -, first, last⟩ := h ▸ CalendarDate.valid_ofJulian julian
  have since := since_newYear h
  have next := until_newYear h
  have near := thursday_bounds julian
  have year := thursdayYear_december h december
  rw [week_eq]
  split at year
  · rw [year, weekSince_eq_one_iff]
    omega
  · have inside := thursdayYear_eq_iff.mp year
    rw [year, weekSince_eq_one_iff]
    omega

theorem fifty_lt_week_iff {julian : Int} {date : CalendarDate}
    (h : CalendarDate.ofJulian julian = date) (january : date.month = 1) :
    50 < week julian ↔ thursdayYear julian = date.year - 1 := by
  obtain ⟨-, -, first, last⟩ := h ▸ CalendarDate.valid_ofJulian julian
  have since := since_newYear h
  have near := thursday_bounds julian
  have short := daysInMonth_bounds date.year date.month
  have back := newYear_succ_bounds (date.year - 1)
  have year := thursdayYear_january h january
  rw [Int.sub_add_cancel] at back
  rw [week_eq]
  split at year
  all_goals
    rw [year, weekSince_eq]
    omega

theorem year_eq (julian : Int) : year julian = thursdayYear julian := by
  generalize h : CalendarDate.ofJulian julian = date
  simp only [year, h]
  rcases thursdayYear_cases h with same | ⟨december, after⟩ | ⟨january, before⟩
  · have notAfter : ¬(week julian = 1 ∧ date.month = 12) := by
      rintro ⟨one, december⟩
      have after := (week_eq_one_iff h december).mp one
      omega
    have notBefore : ¬(date.month = 1 ∧ 50 < week julian) := by
      rintro ⟨january, many⟩
      have before := (fifty_lt_week_iff h january).mp many
      omega
    rw [if_neg notAfter, if_neg notBefore, same]
  · rw [if_pos ⟨(week_eq_one_iff h december).mpr after, december⟩, after]
  · have notDecember : ¬(week julian = 1 ∧ date.month = 12) := by omega
    rw [if_neg notDecember, if_pos ⟨january, (fifty_lt_week_iff h january).mpr before⟩, before]

theorem isoFields_of_thursday (julian : Int) :
    ∃ year day, Field.extractJulian .year (thursday julian) = .ok year ∧
      Field.extractJulian .dayOfYear (thursday julian) = .ok day ∧
      Field.extractJulian .isoYear julian = .ok year ∧
      Field.extractJulian .week julian = .ok ((day - 1) / 7 + 1) := by
  refine ⟨thursdayYear julian, thursday julian - newYear (thursdayYear julian) + 1,
    rfl, rfl, ?_, ?_⟩
  · exact congrArg Except.ok (year_eq julian)
  · rw [Int.add_sub_cancel, ← weekSince_eq]
    exact congrArg Except.ok (week_eq julian)

end Almanac.IsoWeek
