import Almanac.MarchYear

/-!
Dates of the proleptic Gregorian calendar and the Julian day numbers that count them. A date is a
triple of integers: year 0 is the year before year 1, and a month or day outside its range is
carried by the count, not refused. Unix dates are Julian day numbers counted from 1970-01-01.
Main statements: every day number is the number of a valid date, and no two valid dates share one.
-/

namespace Almanac

def IsLeapYear (year : Int) : Prop :=
  year % 4 = 0 ∧ (year % 100 ≠ 0 ∨ year % 400 = 0)

instance (year : Int) : Decidable (IsLeapYear year) :=
  inferInstanceAs (Decidable (_ ∧ _))

def daysInMonth (year month : Int) : Int :=
  if month = 2 then if IsLeapYear year then 29 else 28
  else if month = 4 ∨ month = 6 ∨ month = 9 ∨ month = 11 then 30
  else 31

theorem daysInMonth_bounds (year month : Int) :
    28 ≤ daysInMonth year month ∧ daysInMonth year month ≤ 31 := by
  unfold daysInMonth
  repeat' split
  all_goals omega

/-- The length of a month given by any number. Month 0 has no days; a negative number counts back
from -1, the December of a common year, to -13, which is month 0 again. -/
def monthLength? (year month : Int) : Option Int :=
  let commonYear := 1
  if 1 ≤ month ∧ month ≤ 12 then some (daysInMonth year month)
  else if month = 0 ∨ month = -13 then some 0
  else if -12 ≤ month ∧ month ≤ -1 then some (daysInMonth commonYear (month + 13))
  else none

theorem monthLength?_eq_none_iff {year month : Int} :
    monthLength? year month = none ↔ month < -13 ∨ 12 < month := by
  simp only [monthLength?]
  repeat' split
  all_goals simp
  all_goals omega

structure CalendarDate where
  year : Int
  month : Int
  day : Int
deriving DecidableEq, Repr

/-- The Julian day number of 1970-01-01. -/
def epochJulian : Int := 2440588

/-- The Julian day number of 1 March -4800. -/
def marchEpochJulian : Int := -32044

namespace CalendarDate

def Valid (date : CalendarDate) : Prop :=
  1 ≤ date.month ∧ date.month ≤ 12 ∧ 1 ≤ date.day ∧ date.day ≤ daysInMonth date.year date.month

instance (date : CalendarDate) : Decidable date.Valid :=
  inferInstanceAs (Decidable (_ ∧ _))

theorem valid_iff_monthLength? {date : CalendarDate} :
    date.Valid ↔ 1 ≤ date.month ∧ date.month ≤ 12 ∧ 1 ≤ date.day ∧
      ∃ length, monthLength? date.year date.month = some length ∧ date.day ≤ length := by
  constructor
  · rintro ⟨low, high, first, last⟩
    exact ⟨low, high, first, _, if_pos ⟨low, high⟩, last⟩
  · rintro ⟨low, high, first, length, known, last⟩
    rw [monthLength?, if_pos ⟨low, high⟩] at known
    cases known
    exact ⟨low, high, first, last⟩

/-- January and February belong to the year that began in the March before them. -/
def toJulian (date : CalendarDate) : Int :=
  let back := (14 - date.month) / 12
  MarchYear.daysBefore (date.year + 4800 - back) +
    MarchYear.daysBeforeMonth (date.month + 12 * back - 3) + (date.day - 1) + marchEpochJulian

def ofJulian (julian : Int) : CalendarDate :=
  let march := MarchYear.ofCount (julian - marchEpochJulian)
  let month := MarchYear.monthOfDay march.day
  { year := march.year - 4800 + (month + 2) / 12
    month := (month + 2) % 12 + 1
    day := march.day - (month + 4) * 153 / 5 + 122 + 1 }

def toUnix (date : CalendarDate) : Int :=
  date.toJulian - epochJulian

def ofUnix (unixDate : Int) : CalendarDate :=
  ofJulian (unixDate + epochJulian)

theorem toJulian_ofJulian (julian : Int) : (ofJulian julian).toJulian = julian := by
  have sum := MarchYear.daysBefore_ofCount (julian - marchEpochJulian)
  have bounds := MarchYear.ofCount_day_bounds (julian - marchEpochJulian)
  simp only [ofJulian, toJulian]
  generalize MarchYear.ofCount (julian - marchEpochJulian) = march at *
  have months := MarchYear.monthOfDay_bounds bounds.1 bounds.2
  generalize MarchYear.monthOfDay march.day = month at *
  have back : march.year - 4800 + (month + 2) / 12 + 4800 -
      (14 - ((month + 2) % 12 + 1)) / 12 = march.year := by omega
  have forth : (month + 2) % 12 + 1 + 12 * ((14 - ((month + 2) % 12 + 1)) / 12) - 3 = month := by
    omega
  rw [back, forth, MarchYear.daysBeforeMonth_eq]
  omega

theorem valid_ofJulian (julian : Int) : (ofJulian julian).Valid := by
  have bounds := MarchYear.ofCount_day_bounds (julian - marchEpochJulian)
  have leap := @MarchYear.ofCount_leap (julian - marchEpochJulian)
  simp only [Valid, ofJulian]
  generalize MarchYear.ofCount (julian - marchEpochJulian) = march at *
  have inside := MarchYear.daysBeforeMonth_monthOfDay march.day
  have months := MarchYear.monthOfDay_bounds bounds.1 bounds.2
  generalize MarchYear.monthOfDay march.day = month at *
  simp only [MarchYear.daysBeforeMonth, daysInMonth, IsLeapYear] at *
  refine ⟨by omega, by omega, by omega, ?_⟩
  repeat' split
  all_goals omega

theorem toUnix_ofUnix (unixDate : Int) : (ofUnix unixDate).toUnix = unixDate := by
  rw [toUnix, ofUnix, toJulian_ofJulian]
  omega

theorem valid_ofUnix (unixDate : Int) : (ofUnix unixDate).Valid :=
  valid_ofJulian _

theorem ofJulian_toJulian {date : CalendarDate} (h : date.Valid) :
    ofJulian date.toJulian = date := by
  obtain ⟨year, month, day⟩ := date
  simp only [Valid, daysInMonth, IsLeapYear] at h
  simp only [toJulian, ofJulian]
  have back : (14 - month) / 12 = if month ≤ 2 then 1 else 0 := by split <;> omega
  generalize (14 - month) / 12 = b at *
  have split : MarchYear.ofCount (MarchYear.daysBefore (year + 4800 - b) +
      MarchYear.daysBeforeMonth (month + 12 * b - 3) + (day - 1) + marchEpochJulian -
      marchEpochJulian) = ⟨year + 4800 - b,
        MarchYear.daysBeforeMonth (month + 12 * b - 3) + (day - 1)⟩ := by
    rw [← MarchYear.ofCount_eq]
    · congr 1
      omega
    · simp only [MarchYear.daysBeforeMonth]
      omega
    · rw [MarchYear.daysBefore_succ]
      simp only [MarchYear.daysBeforeMonth]
      repeat' split at h
      all_goals repeat' split at back
      all_goals split
      all_goals omega
  have marchMonth : MarchYear.monthOfDay
      (MarchYear.daysBeforeMonth (month + 12 * b - 3) + (day - 1)) = month + 12 * b - 3 := by
    apply MarchYear.monthOfDay_eq
    · omega
    · have twelve : month = 1 ∨ month = 2 ∨ month = 3 ∨ month = 4 ∨ month = 5 ∨ month = 6 ∨
          month = 7 ∨ month = 8 ∨ month = 9 ∨ month = 10 ∨ month = 11 ∨ month = 12 := by omega
      simp only [MarchYear.daysBeforeMonth]
      rcases twelve with rfl | rfl | rfl | rfl | rfl | rfl | rfl | rfl | rfl | rfl | rfl | rfl
      all_goals
        subst back
        simp at h ⊢
      all_goals omega
  have days := MarchYear.daysBeforeMonth_eq (month + 12 * b - 3)
  simp only [split, marchMonth, mk.injEq]
  split at back <;> omega

end CalendarDate

end Almanac
