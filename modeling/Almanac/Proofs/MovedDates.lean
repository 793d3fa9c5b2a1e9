import Almanac.Proofs.MonthOrder

/-! Moved dates by their fields. Months are counted through from year to year, so that the month a
date comes to is named by one index, and the day there is the day of the date if the month has it.
A moved date is again a valid date: whoever reads its fields finds that month and that day, or the
first of the month after. Main statements: the fields of a moved date; two moves in a row, which
are one move unless the first of them rolls over; and the months counted back from a moved date,
which are those it was moved by unless it rolled over on a move to an earlier month. -/

namespace Almanac.MonthIndex

def onDay (index day : Int) : CalendarDate := ⟨year index, month index, day⟩

theorem ofDate_onDay (index day : Int) : ofDate (onDay index day) = index := by
  simp only [ofDate, onDay, year, month]
  omega

theorem toUnix_onDay (index day : Int) :
    (onDay index day).toUnix = firstDay index + (day - 1) := by
  rw [toUnix_eq, ofDate_onDay]
  rfl

theorem valid_onDay_iff {index day : Int} :
    (onDay index day).Valid ↔ 1 ≤ day ∧ day ≤ length index := by
  obtain ⟨low, high⟩ := month_bounds index
  constructor
  · rintro ⟨-, -, first, last⟩
    exact ⟨first, last⟩
  · rintro ⟨first, last⟩
    exact ⟨low, high, first, last⟩

theorem valid_onDay_one (index : Int) : (onDay index 1).Valid := by
  have long := (length_bounds index).1
  exact valid_onDay_iff.2 ⟨le_rfl, by omega⟩

end Almanac.MonthIndex

namespace Almanac.MonthShift
open MonthIndex

/-- The date so many months later: the day is kept if the month has it, and otherwise the date is
the first of the month after. -/
def moved (date : CalendarDate) (months : Int) : CalendarDate :=
  let index := ofDate date + months
  if (onDay index date.day).Valid then onDay index date.day else onDay (index + 1) 1

section
variable {date : CalendarDate} {months : Int}

theorem moved_of_valid (h : (onDay (ofDate date + months) date.day).Valid) :
    moved date months = onDay (ofDate date + months) date.day := if_pos h

theorem moved_of_not_valid (h : ¬(onDay (ofDate date + months) date.day).Valid) :
    moved date months = onDay (ofDate date + months + 1) 1 := if_neg h

end

theorem valid_moved (date : CalendarDate) (months : Int) : (moved date months).Valid := by
  by_cases kept : (onDay (ofDate date + months) date.day).Valid
  · rw [moved_of_valid kept]
    exact kept
  · rw [moved_of_not_valid kept]
    exact valid_onDay_one _

theorem moved_moved_of_valid {date : CalendarDate} {first : Int}
    (h : (onDay (ofDate date + first) date.day).Valid) (second : Int) :
    moved (moved date first) second = moved date (first + second) := by
  rw [moved_of_valid h]
  simp only [moved, ofDate_onDay, Int.add_assoc]
  rfl

theorem moved_moved_of_not_valid {date : CalendarDate} {first : Int}
    (h : ¬(onDay (ofDate date + first) date.day).Valid) (second : Int) :
    moved (moved date first) second = onDay (ofDate date + first + second + 1) 1 := by
  have index : ofDate date + first + 1 + second = ofDate date + first + second + 1 := by omega
  rw [moved_of_not_valid h, ← index]
  -- every month has a first day, so that the second move does not roll over
  conv_rhs => rw [← ofDate_onDay (ofDate date + first + 1) 1]
  exact moved_of_valid (valid_onDay_one _)

theorem addMonths_eq_toUnix (unixDate months : Int) :
    addMonths unixDate months = (moved (.ofUnix unixDate) months).toUnix := by
  obtain ⟨-, -, first, -⟩ := CalendarDate.valid_ofUnix unixDate
  rw [addMonths]
  by_cases kept : (CalendarDate.ofUnix unixDate).day ≤ length (ofDate (.ofUnix unixDate) + months)
  · rw [if_pos kept, moved_of_valid (valid_onDay_iff.2 ⟨first, kept⟩), toUnix_onDay]
  · rw [if_neg kept, moved_of_not_valid fun valid => kept (valid_onDay_iff.1 valid).2]
    rfl

theorem ofUnix_addMonths (unixDate months : Int) :
    CalendarDate.ofUnix (addMonths unixDate months) = moved (.ofUnix unixDate) months := by
  rw [addMonths_eq_toUnix, CalendarDate.ofUnix_toUnix (valid_moved _ _)]

/-- A moved date is the earlier one of its day counted on from the first of the month it comes to,
and the first of the month after. Its fields are that month and its day if the month has the day,
and otherwise those of the first of the month after. -/
theorem addMonths_eq_min_and_fields (unixDate months : Int) :
    let date := CalendarDate.ofUnix unixDate
    let index := 12 * date.year + date.month - 1 + months
    addMonths unixDate months =
        min ((onDay index 1).toUnix + date.day - 1) (onDay (index + 1) 1).toUnix ∧
      CalendarDate.ofUnix (addMonths unixDate months) =
        if (onDay index date.day).Valid then onDay index date.day else onDay (index + 1) 1 := by
  intro date index
  constructor
  · rw [addMonths_eq_min, Int.add_sub_assoc]
    rfl
  · exact ofUnix_addMonths unixDate months

theorem addMonths_addMonths_eq_toUnix (unixDate first second : Int) :
    addMonths (addMonths unixDate first) second =
      (moved (moved (.ofUnix unixDate) first) second).toUnix := by
  rw [addMonths_eq_toUnix, ofUnix_addMonths]

/-- Two moves are one move, and a move is undone by the opposite one, if the first move comes to a
month that has the day. Otherwise the day is lost: every further move comes to a first of month. -/
theorem addMonths_addMonths (unixDate first second : Int) :
    let date := CalendarDate.ofUnix unixDate
    let index := 12 * date.year + date.month - 1
    ((onDay (index + first) date.day).Valid →
      addMonths (addMonths unixDate first) second = addMonths unixDate (first + second) ∧
        addMonths (addMonths unixDate first) (-first) = unixDate) ∧
    (¬(onDay (index + first) date.day).Valid →
      addMonths (addMonths unixDate first) second =
        (onDay (index + first + second + 1) 1).toUnix) := by
  intro date index
  simp only [addMonths_addMonths_eq_toUnix]
  refine ⟨fun kept => ⟨?_, ?_⟩, fun lost => ?_⟩
  · rw [moved_moved_of_valid kept, addMonths_eq_toUnix]
  · rw [moved_moved_of_valid kept, Int.add_right_neg, ← addMonths_eq_toUnix, addMonths_zero]
  · exact congrArg CalendarDate.toUnix (moved_moved_of_not_valid lost second)

theorem addMonths_addMonths_of_january :
    CalendarDate.ofUnix 16831 = ⟨2016, 1, 31⟩ ∧ (onDay (24192 + 2) 31).Valid ∧
      addMonths (addMonths 16831 2) (-1) = addMonths 16831 (2 + -1) ∧
      addMonths (addMonths 16831 2) (-2) = 16831 ∧ ¬(onDay (24192 + 1) 31).Valid ∧
      addMonths (addMonths 16831 1) (-1) = (onDay (24192 + 1 + -1 + 1) 1).toUnix := by
  have march : (onDay (24192 + 2) 31).Valid := by decide
  have february : ¬(onDay (24192 + 1) 31).Valid := by decide
  obtain ⟨joined, back⟩ := (addMonths_addMonths 16831 2 (-1)).1 march
  exact ⟨by decide, march, joined, back, february, (addMonths_addMonths 16831 1 (-1)).2 february⟩

theorem brackets_of_addMonths_eq {later earlier months : Int}
    (h : addMonths earlier months = later) : Brackets later earlier months := by
  refine ⟨h.le, ?_⟩
  rw [← h]
  exact addMonths_lt_succ earlier months

section
variable {unixDate months : Int}

theorem addMonths_neg_of_valid
    (h : (onDay (ofUnix unixDate + months) (CalendarDate.ofUnix unixDate).day).Valid) :
    addMonths (addMonths unixDate months) (-months) = unixDate := by
  rw [addMonths_addMonths_eq_toUnix, moved_moved_of_valid h, Int.add_right_neg,
    ← addMonths_eq_toUnix, addMonths_zero]

theorem addMonths_addMonths_of_not_valid
    (h : ¬(onDay (ofUnix unixDate + months) (CalendarDate.ofUnix unixDate).day).Valid)
    (further : Int) :
    addMonths (addMonths unixDate months) further =
      firstDay (ofUnix unixDate + months + further + 1) := by
  rw [addMonths_addMonths_eq_toUnix, moved_moved_of_not_valid h]
  rfl

theorem brackets_of_rolled
    (h : ¬(onDay (ofUnix unixDate + months) (CalendarDate.ofUnix unixDate).day).Valid) :
    Brackets unixDate (addMonths unixDate months) (-months - 1) := by
  have back : ofUnix unixDate + months + (-months - 1) + 1 = ofUnix unixDate := by omega
  have further : ofUnix unixDate + months + (-months - 1 + 1) + 1 = ofUnix unixDate + 1 := by omega
  rw [Brackets, addMonths_addMonths_of_not_valid h, addMonths_addMonths_of_not_valid h, back,
    further]
  exact ⟨firstDay_ofUnix_le unixDate, lt_firstDay_ofUnix_succ unixDate⟩

end

theorem subtractMonths_addMonths_of_nonneg (unixDate : Int) {months : Int} (h : 0 ≤ months) :
    (subtractMonths (addMonths unixDate months) unixDate).1 = months := by
  have forward := (addMonths_strictMono unixDate).monotone h
  rw [addMonths_zero] at forward
  exact (brackets_subtractMonths forward).unique (brackets_of_addMonths_eq rfl)

/-- The months between a moved date and the date that it was moved from are those it was moved by,
and one more if and only if the move goes back to a month that lacks the day. -/
theorem subtractMonths_addMonths (unixDate months : Int) :
    let date := CalendarDate.ofUnix unixDate
    let index := 12 * date.year + date.month - 1
    (subtractMonths (addMonths unixDate months) unixDate).1 =
      if months < 0 ∧ ¬(onDay (index + months) date.day).Valid then months + 1 else months := by
  intro date index
  rcases le_or_gt 0 months with forward | backward
  · rw [if_neg fun back => absurd back.1 (not_lt.2 forward)]
    exact subtractMonths_addMonths_of_nonneg unixDate forward
  · have earlier := (addMonths_strictMono unixDate backward).le
    rw [addMonths_zero] at earlier
    by_cases kept : (onDay (index + months) date.day).Valid
    · rw [if_neg fun lost => lost.2 kept,
        subtractMonths_of_brackets earlier (brackets_of_addMonths_eq (addMonths_neg_of_valid kept)),
        neg_neg]
    · rw [if_pos ⟨backward, kept⟩, subtractMonths_of_brackets earlier (brackets_of_rolled kept)]
      omega

end Almanac.MonthShift
