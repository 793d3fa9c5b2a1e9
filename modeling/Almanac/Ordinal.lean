import Almanac.Calendar

/-!
The count of days that clocks of the years 1..9999 are read by: day 1 is 0001-01-01, and a date is
counted by adding up the lengths of complete years and then of complete months. It knows nothing
of Julian day numbers. Main statements: the count restores the date it came from, and the reader
answers a valid date for every day.
-/

namespace Almanac.Ordinal

def epoch : Int := 719163

def daysBeforeYear (year : Int) : Int :=
  365 * (year - 1) + (year - 1) / 4 - (year - 1) / 100 + (year - 1) / 400

theorem daysBeforeYear_succ (year : Int) :
    daysBeforeYear (year + 1) = daysBeforeYear year + if IsLeapYear year then 366 else 365 := by
  by_cases leap : IsLeapYear year <;>
    simp only [leap, if_true, if_false, daysBeforeYear] <;>
    unfold IsLeapYear at leap <;> omega

def daysInMonths (year : Int) : Nat → Int
  | 0 => 0
  | months + 1 => daysInMonths year months + daysInMonth year (months + 1)

def ofDate (date : CalendarDate) : Int :=
  daysBeforeYear date.year + daysInMonths date.year (date.month - 1).toNat + date.day

/-- The year of an ordinal: the mean length of a year misses it by one year at most. -/
def yearOf (ordinal : Int) : Int :=
  let near := (ordinal - 1) * 400 / 146097 + 1
  if ordinal ≤ daysBeforeYear near then near - 1
  else if daysBeforeYear (near + 1) < ordinal then near + 1
  else near

theorem daysBeforeYear_yearOf (ordinal : Int) :
    daysBeforeYear (yearOf ordinal) < ordinal ∧ ordinal ≤ daysBeforeYear (yearOf ordinal + 1) := by
  simp only [yearOf]
  repeat' split
  all_goals
    unfold daysBeforeYear at *
    omega

/-- Walks through the months of a year, from the given one on, to the one that a day falls into;
at most the given number of months is passed. -/
def walk (year : Int) : Nat → Int → Int → CalendarDate
  | 0, month, day => ⟨year, month, day⟩
  | months + 1, month, day =>
    if day ≤ daysInMonth year month then ⟨year, month, day⟩
    else walk year months (month + 1) (day - daysInMonth year month)

def toDate (ordinal : Int) : CalendarDate :=
  let year := yearOf ordinal
  walk year 11 1 (ordinal - daysBeforeYear year)

theorem daysInMonths_twelve (year : Int) :
    daysInMonths year 12 = if IsLeapYear year then 366 else 365 := by
  by_cases leap : IsLeapYear year <;> simp [daysInMonths, daysInMonth, leap]

theorem walk_year (year : Int) (months : Nat) (month day : Int) :
    (walk year months month day).year = year := by
  induction months generalizing month day with
  | zero => rfl
  | succ months ih =>
    unfold walk
    split
    · rfl
    · exact ih _ _

theorem daysInMonths_walk (year : Int) (months : Nat) (start : Nat) (day : Int) :
    daysInMonths year ((walk year months (start + 1) day).month - 1).toNat +
      (walk year months (start + 1) day).day = daysInMonths year start + day := by
  induction months generalizing start day with
  | zero => simp [walk]
  | succ months ih =>
    unfold walk
    split
    · simp
    · have := ih (start + 1) (day - daysInMonth year (start + 1))
      simp only [daysInMonths, Int.natCast_add, Int.natCast_one] at this
      omega

theorem ofDate_toDate (ordinal : Int) : ofDate (toDate ordinal) = ordinal := by
  have sum := daysInMonths_walk (yearOf ordinal) 11 0 (ordinal - daysBeforeYear (yearOf ordinal))
  simp only [daysInMonths, Int.natCast_zero, Int.zero_add] at sum
  simp only [ofDate, toDate, walk_year]
  omega

theorem walk_bounds (year : Int) (months start : Nat) (day : Int) (whole : start + months = 11)
    (first : 1 ≤ day) (last : day ≤ daysInMonths year 12 - daysInMonths year start) :
    (walk year months (start + 1) day).Valid := by
  induction months generalizing start day with
  | zero =>
    obtain rfl : start = 11 := by omega
    simp only [daysInMonths] at last
    simp only [walk, CalendarDate.Valid]
    omega
  | succ months ih =>
    unfold walk
    split
    · next inside =>
      simp only [CalendarDate.Valid]
      omega
    · next outside =>
      have := ih (start + 1) (day - daysInMonth year (start + 1)) (by omega) (by omega)
        (by simp only [daysInMonths] at *; omega)
      simpa using this

theorem valid_toDate (ordinal : Int) : (toDate ordinal).Valid := by
  have inside := daysBeforeYear_yearOf ordinal
  rw [daysBeforeYear_succ] at inside
  have whole := daysInMonths_twelve (yearOf ordinal)
  exact walk_bounds (yearOf ordinal) 11 0 _ rfl (by omega) (by simp only [daysInMonths] at *; omega)

end Almanac.Ordinal
