import Almanac.Field
import Almanac.Proofs.OrdinalDays

/-! Days numbered through a year. The number of a day is a difference of day numbers, which begin
their years in March and look up no month; here it is compared with the leap rule and the table of
months. Main statement: the number of a day is its day of the month and the lengths of all months
before it, and the days of a year take the numbers from 1 to 365, or 366 in a leap year, one each,
the last number being that of 31 December. -/

namespace Almanac.Ordinal

theorem daysInMonths_eq_sum (year : Int) (months : Nat) :
    daysInMonths year months =
      ∑ month ∈ Finset.Ico 1 (months + 1 : Int), daysInMonth year month := by
  induction months with
  | zero => rfl
  | succ months ih =>
    have next : Finset.Ico 1 ((months + 1 : Nat) + 1 : Int) =
        insert (months + 1 : Int) (Finset.Ico 1 (months + 1 : Int)) := by
      rw [Int.natCast_succ, Finset.insert_Ico_right_eq_Ico_add_one (by omega)]
    rw [next, Finset.sum_insert Finset.right_notMem_Ico, ← ih, daysInMonths, Int.add_comm]

end Almanac.Ordinal

namespace Almanac.IsoWeek

theorem newYear_add_daysInMonths {julian : Int} {date : CalendarDate}
    (h : CalendarDate.ofJulian julian = date) :
    newYear date.year + Ordinal.daysInMonths date.year (date.month - 1).toNat + date.day =
      julian + 1 := by
  have ordinal := Ordinal.ofDate_eq (h ▸ CalendarDate.valid_ofJulian julian)
  have count : date.toJulian = julian := h ▸ CalendarDate.toJulian_ofJulian julian
  rw [Ordinal.ofDate, Ordinal.daysBeforeYear_eq, CalendarDate.toUnix, count] at ordinal
  rw [newYear_eq_firstDay]
  omega

end Almanac.IsoWeek

namespace Almanac.Field
open IsoWeek

def daysInYear (year : Int) : Int := if IsLeapYear year then 366 else 365

theorem newYear_add_daysInYear (year : Int) : newYear year + daysInYear year = newYear (year + 1) :=
  (newYear_succ year).symm

section
variable {julian : Int} {date : CalendarDate} (h : CalendarDate.ofJulian julian = date)
include h

theorem dayOfYear_eq : ofJulian julian .dayOfYear = julian - newYear date.year + 1 := by
  rw [ofJulian, h]

theorem dayOfYear_eq_sum :
    ofJulian julian .dayOfYear =
      date.day + ∑ month ∈ Finset.Ico 1 date.month, daysInMonth date.year month := by
  obtain ⟨low, -, -, -⟩ := h ▸ CalendarDate.valid_ofJulian julian
  have count := newYear_add_daysInMonths h
  have upTo : ((date.month - 1).toNat + 1 : Int) = date.month := by omega
  rw [Ordinal.daysInMonths_eq_sum, upTo] at count
  rw [dayOfYear_eq h]
  omega

theorem dayOfYear_eq_daysInYear_iff :
    ofJulian julian .dayOfYear = daysInYear date.year ↔ date.month = 12 ∧ date.day = 31 := by
  obtain ⟨-, high, -, last⟩ := h ▸ CalendarDate.valid_ofJulian julian
  have next := until_newYear h
  have december : daysInMonth date.year 12 = 31 := rfl
  rw [← newYear_add_daysInYear] at next
  rw [dayOfYear_eq h]
  constructor
  -- no day of the month and no month of the year is left before the next New Year
  · intro final
    have inDecember : date.month = 12 := by omega
    rw [inDecember, december] at next
    omega
  · rintro ⟨inDecember, final⟩
    rw [inDecember, final, december] at next
    omega

end

theorem dayOfYear_bounds (julian : Int) :
    1 ≤ ofJulian julian .dayOfYear ∧
      ofJulian julian .dayOfYear ≤ daysInYear (CalendarDate.ofJulian julian).year := by
  obtain ⟨notBefore, before⟩ :=
    year_ofJulian_eq_iff.1 (Eq.refl (CalendarDate.ofJulian julian).year)
  rw [← newYear_add_daysInYear] at before
  rw [dayOfYear_eq rfl]
  omega

theorem year_of_number {year number : Int} (low : 1 ≤ number) (high : number ≤ daysInYear year) :
    (CalendarDate.ofJulian (newYear year + (number - 1))).year = year := by
  rw [year_ofJulian_eq_iff, ← newYear_add_daysInYear]
  omega

theorem bijOn_dayOfYear (year : Int) :
    Set.BijOn (ofJulian · .dayOfYear) {julian | (CalendarDate.ofJulian julian).year = year}
      (Set.Icc 1 (daysInYear year)) := by
  have numbered : Set.MapsTo (ofJulian · .dayOfYear)
      {julian | (CalendarDate.ofJulian julian).year = year} (Set.Icc 1 (daysInYear year)) := by
    rintro julian rfl
    exact dayOfYear_bounds julian
  have inYear : Set.MapsTo (fun number => newYear year + (number - 1))
      (Set.Icc 1 (daysInYear year)) {julian | (CalendarDate.ofJulian julian).year = year} :=
    fun number ⟨low, high⟩ => year_of_number low high
  refine Set.InvOn.bijOn ⟨?_, ?_⟩ numbered inYear
  · rintro julian rfl
    simp only [dayOfYear_eq rfl]
    omega
  · rintro number ⟨low, high⟩
    simp only [dayOfYear_eq rfl, year_of_number low high]
    omega

theorem dayOfYear_counts_months :
    (∀ julian, let date := CalendarDate.ofJulian julian
      extractJulian .dayOfYear julian = .ok (ofJulian julian .dayOfYear) ∧
        ofJulian julian .dayOfYear =
          date.day + ∑ month ∈ Finset.Ico 1 date.month, daysInMonth date.year month ∧
        (ofJulian julian .dayOfYear = daysInYear date.year ↔
          date.month = 12 ∧ date.day = 31)) ∧
      ∀ year, Set.BijOn (ofJulian · .dayOfYear)
        {julian | (CalendarDate.ofJulian julian).year = year} (Set.Icc 1 (daysInYear year)) := by
  refine ⟨fun julian => ⟨rfl, ?_, ?_⟩, bijOn_dayOfYear⟩
  · exact dayOfYear_eq_sum rfl
  · exact dayOfYear_eq_daysInYear_iff rfl

/-- The first day behind a leap day, before the year 0. -/
example : ofJulian (CalendarDate.toJulian ⟨-4, 3, 1⟩) .dayOfYear = 61 := by decide

end Almanac.Field
