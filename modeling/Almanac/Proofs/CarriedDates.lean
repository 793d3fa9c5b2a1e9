import Almanac.Proofs.LiteralReadback
import Almanac.MonthIndex

/-! Dates whose month or day lies outside its range. The count of days has no ranges: months are
counted through from year to year and days from the first of their month, so that a month past
December falls into a later year and a day 0 on the last of the month before. Date literals are not
checked either, and come to the day that their numbers are counted to. Main statement: such a date
is the first of the month that its year and month come to, counted on by its days, and the literal
of its three numbers is read as that date. -/

namespace Almanac.CalendarDate

def firstOfMonth (year month : Int) : CalendarDate :=
  ⟨year + (month - 1) / 12, (month - 1) % 12 + 1, 1⟩

theorem valid_firstOfMonth (year month : Int) : (firstOfMonth year month).Valid := by
  have long := (daysInMonth_bounds (year + (month - 1) / 12) ((month - 1) % 12 + 1)).1
  refine ⟨?_, ?_, le_rfl, ?_⟩
  all_goals
    simp only [firstOfMonth]
    omega

theorem toUnix_eq_firstOfMonth (date : CalendarDate) :
    date.toUnix = (firstOfMonth date.year date.month).toUnix + date.day - 1 := by
  have sameMonth : MonthIndex.ofDate (firstOfMonth date.year date.month) =
      MonthIndex.ofDate date := by
    simp only [MonthIndex.ofDate, firstOfMonth]
    omega
  rw [MonthIndex.toUnix_eq, MonthIndex.toUnix_eq, sameMonth]
  simp only [firstOfMonth]
  omega

end Almanac.CalendarDate

namespace Almanac.Literal
open Numeral

theorem readDate_decimals {year month day : Int} (nonneg : 0 ≤ year) (nonneg' : 0 ≤ month)
    (short : digitCount year ≤ maxDigits) (short' : digitCount month ≤ maxDigits)
    (short'' : digitCount day ≤ maxDigits) :
    readDate (decimal year ++ '-' :: decimal month ++ '-' :: decimal day) =
      .ok (CalendarDate.toUnix ⟨year, month, day⟩) := by
  -- the minus of a negative day is no hyphen of its date: it stands behind the second one
  have noHyphen : ∀ {n : Int}, 0 ≤ n → '-' ∉ decimal n := fun {n} h => by
    rw [decimal_eq_zeroPadded]
    exact not_mem_zeroPadded (by decide) (.inl h)
  exact readDate_of_components (noHyphen nonneg) (noHyphen nonneg') (readInt?_decimal short)
    (readInt?_decimal short') (readInt?_decimal short'')

/-- Whatever the numbers of a date are, its year and month come to a month of the calendar, and the
date is the first of that month counted on by its days. The decimal text of the numbers is read as
that date, if none of them is too long and the year and the month have no sign. -/
theorem toUnix_readDate_carry (year month day : Int) :
    let first : CalendarDate := ⟨year + (month - 1) / 12, (month - 1) % 12 + 1, 1⟩
    first.Valid ∧ CalendarDate.toUnix ⟨year, month, day⟩ = first.toUnix + day - 1 ∧
    (0 ≤ year → 0 ≤ month → digitCount year ≤ 4300 → digitCount month ≤ 4300 →
      digitCount day ≤ 4300 →
      readDate (decimal year ++ '-' :: decimal month ++ '-' :: decimal day) =
        .ok (first.toUnix + day - 1)) := by
  intro first
  have carried : CalendarDate.toUnix ⟨year, month, day⟩ = first.toUnix + day - 1 :=
    CalendarDate.toUnix_eq_firstOfMonth ⟨year, month, day⟩
  refine ⟨CalendarDate.valid_firstOfMonth year month, carried, ?_⟩
  intro nonneg nonneg' short short' short''
  rw [← carried]
  exact readDate_decimals nonneg nonneg' short short' short''

theorem toUnix_readDate_carry_new_year :
    decimal 2024 ++ '-' :: decimal 14 ++ '-' :: decimal (-30) = "2024-14--30".toList ∧
      digitCount 2024 ≤ 4300 ∧ digitCount 14 ≤ 4300 ∧ digitCount (-30) ≤ 4300 ∧
      readDate "2024-14--30".toList = .ok (CalendarDate.toUnix ⟨2025, 1, 1⟩) := by
  have text : decimal 2024 ++ '-' :: decimal 14 ++ '-' :: decimal (-30) =
      "2024-14--30".toList := by decide
  have short : digitCount 2024 ≤ 4300 := by decide
  have short' : digitCount 14 ≤ 4300 := by decide
  have short'' : digitCount (-30) ≤ 4300 := by decide
  have read :=
    (toUnix_readDate_carry 2024 14 (-30)).2.2 (by decide) (by decide) short short' short''
  rw [text] at read
  exact ⟨text, short, short', short'', read⟩

end Almanac.Literal
