import Mathlib
import Almanac.IsoDate
import Almanac.Proofs.IsoThursday

/-! Week dates: an ISO year, a week of it, and a day of that week. The first Mondays of the years
cut the line of days into years of 52 or 53 whole weeks, with the 53rd where the rule of the
standard has it, so that a day number is divided into year, week and day without remainder. Main
statement: the three ISO fields of a day are a week date that exists, each such date is the one of
exactly one day, and days are in the order of their week dates. -/

namespace Almanac.IsoWeek

theorem weeksInYear_bounds (year : Int) : 52 ≤ weeksInYear year ∧ weeksInYear year ≤ 53 := by
  simp only [weeksInYear]
  split <;> omega

theorem firstMonday_succ (year : Int) :
    firstMonday (year + 1) = firstMonday year + 7 * weeksInYear year := by
  simp only [firstMonday, weeksInYear, daysSinceMonday, daysSinceSunday, newYear_succ]
  generalize newYear year = first
  by_cases leap : IsLeapYear year
  · simp only [leap, if_true, and_true]
    split <;> omega
  · simp only [leap, if_false, and_false, or_false]
    split <;> omega

theorem firstMonday_strictMono : StrictMono firstMonday := by
  apply strictMono_int_of_lt_succ
  intro year
  have weeks := weeksInYear_bounds year
  rw [firstMonday_succ]
  omega

theorem firstMonday_le_iff {year julian : Int} :
    firstMonday year ≤ julian ↔ newYear year ≤ thursday julian := by
  have since := weekSince_eq year julian
  unfold weekSince at since
  omega

theorem year_eq_iff {julian number : Int} :
    year julian = number ↔ firstMonday number ≤ julian ∧ julian < firstMonday (number + 1) := by
  rw [year_eq, thursdayYear_eq_iff, ← firstMonday_le_iff, ← Int.not_le, ← firstMonday_le_iff,
    Int.not_le]

theorem week_eq_since_firstMonday (julian : Int) :
    week julian = (julian - firstMonday (year julian)) / 7 + 1 := by
  rw [week_eq, year_eq, weekSince]

end Almanac.IsoWeek

namespace Almanac

structure WeekDate where
  year : Int
  week : Int
  day : Int
deriving DecidableEq, Repr

namespace WeekDate
open IsoWeek

def Valid (date : WeekDate) : Prop :=
  (1 ≤ date.week ∧ date.week ≤ weeksInYear date.year) ∧ 1 ≤ date.day ∧ date.day ≤ 7

instance (date : WeekDate) : Decidable date.Valid :=
  inferInstanceAs (Decidable (_ ∧ _))

def toJulian (date : WeekDate) : Int :=
  firstMonday date.year + 7 * (date.week - 1) + (date.day - 1)

def ofJulian (julian : Int) : WeekDate :=
  ⟨IsoWeek.year julian, IsoWeek.week julian, daysSinceMonday julian + 1⟩

theorem extractJulian_fields (julian : Int) :
    Field.extractJulian .isoYear julian = .ok (ofJulian julian).year ∧
      Field.extractJulian .week julian = .ok (ofJulian julian).week ∧
      Field.extractJulian .isoDayOfWeek julian = .ok (ofJulian julian).day := by
  simp only [Field.extractJulian, Field.DateField.ofRange?, Field.ofJulian, ofJulian, and_self]

def key (date : WeekDate) : Int ×ₗ Int ×ₗ Int :=
  toLex (date.year, toLex (date.week, date.day))

theorem key_lt_iff {first second : WeekDate} :
    first.key < second.key ↔ first.year < second.year ∨ first.year = second.year ∧
      (first.week < second.week ∨ first.week = second.week ∧ first.day < second.day) := by
  simp only [key, Prod.Lex.toLex_lt_toLex]

theorem toJulian_bounds {date : WeekDate} (h : date.Valid) :
    firstMonday date.year ≤ date.toJulian ∧ date.toJulian < firstMonday (date.year + 1) := by
  obtain ⟨⟨first, last⟩, low, high⟩ := h
  rw [firstMonday_succ, toJulian]
  omega

theorem toJulian_ofJulian (julian : Int) : (ofJulian julian).toJulian = julian := by
  have monday := daysSinceMonday_firstMonday (IsoWeek.year julian)
  simp only [toJulian, ofJulian, week_eq_since_firstMonday]
  unfold daysSinceMonday at *
  omega

theorem valid_ofJulian (julian : Int) : (ofJulian julian).Valid := by
  obtain ⟨notBefore, before⟩ := year_eq_iff.1 (Eq.refl (IsoWeek.year julian))
  rw [firstMonday_succ] at before
  simp only [Valid, ofJulian, week_eq_since_firstMonday, daysSinceMonday]
  omega

theorem ofJulian_toJulian {date : WeekDate} (h : date.Valid) : ofJulian date.toJulian = date := by
  have sameYear : IsoWeek.year date.toJulian = date.year := year_eq_iff.2 (toJulian_bounds h)
  have monday := daysSinceMonday_firstMonday date.year
  obtain ⟨year, week, day⟩ := date
  obtain ⟨-, low, high⟩ := h
  simp only [ofJulian, week_eq_since_firstMonday, sameYear, mk.injEq, true_and]
  simp only [toJulian, daysSinceMonday] at *
  omega

theorem toJulian_lt_iff {first second : WeekDate} (h : first.Valid) (h' : second.Valid) :
    first.toJulian < second.toJulian ↔ first.key < second.key := by
  -- the years' weeks do not overlap; within one year the number is 7 * week + day
  have inside := toJulian_bounds h
  have inside' := toJulian_bounds h'
  rw [key_lt_iff]
  rcases Int.lt_trichotomy first.year second.year with earlier | same | later
  · have apart := firstMonday_strictMono.monotone (show first.year + 1 ≤ second.year from earlier)
    omega
  · obtain ⟨-, low, high⟩ := h
    obtain ⟨-, low', high'⟩ := h'
    rw [toJulian, toJulian, same]
    omega
  · have apart := firstMonday_strictMono.monotone (show second.year + 1 ≤ first.year from later)
    omega

theorem mapsTo_ofJulian : Set.MapsTo ofJulian Set.univ {date | date.Valid} :=
  fun julian _ => valid_ofJulian julian

theorem invOn_toJulian : Set.InvOn toJulian ofJulian Set.univ {date | date.Valid} :=
  ⟨fun julian _ => toJulian_ofJulian julian, fun _ valid => ofJulian_toJulian valid⟩

theorem weekDate?_eq_some_iff {year week day unixDate : Int} :
    IsoDate.weekDate? year week day = some unixDate ↔
      ofJulian (unixDate + epochJulian) = ⟨year, week, day⟩ := by
  have count : firstMonday year + 7 * (week - 1) + (day - 1) = toJulian ⟨year, week, day⟩ := rfl
  rw [IsoDate.weekDate?, count, Option.ite_none_right_eq_some, Option.some.injEq]
  constructor
  · rintro ⟨⟨first, last, low, high⟩, rfl⟩
    have valid : Valid ⟨year, week, day⟩ := ⟨⟨first, last⟩, low, high⟩
    rw [Int.sub_add_cancel, ofJulian_toJulian valid]
  · intro fields
    have valid : Valid ⟨year, week, day⟩ := fields ▸ valid_ofJulian (unixDate + epochJulian)
    obtain ⟨⟨first, last⟩, low, high⟩ := valid
    refine ⟨⟨first, last, low, high⟩, ?_⟩
    rw [← fields, toJulian_ofJulian, Int.add_sub_cancel]

theorem bijOn_ofJulian_and_order :
    (∀ julian, Field.extractJulian .isoYear julian = .ok (ofJulian julian).year ∧
      Field.extractJulian .week julian = .ok (ofJulian julian).week ∧
      Field.extractJulian .isoDayOfWeek julian = .ok (ofJulian julian).day) ∧
    Set.BijOn ofJulian Set.univ {date | date.Valid} ∧
    Set.InvOn toJulian ofJulian Set.univ {date | date.Valid} ∧
    ∀ first second, first < second ↔ (ofJulian first).key < (ofJulian second).key := by
  refine ⟨extractJulian_fields, ?_, invOn_toJulian, fun first second => ?_⟩
  · exact invOn_toJulian.bijOn mapsTo_ofJulian (Set.mapsTo_univ _ _)
  · rw [← toJulian_lt_iff (valid_ofJulian first) (valid_ofJulian second), toJulian_ofJulian,
      toJulian_ofJulian]

/-- The first day of 2021 lies in the 53rd week of 2020. -/
example : ofJulian (CalendarDate.toJulian ⟨2021, 1, 1⟩) = ⟨2020, 53, 5⟩ := by decide

end WeekDate

end Almanac
