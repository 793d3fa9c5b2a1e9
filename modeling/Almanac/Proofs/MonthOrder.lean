import Almanac.Proofs.MonthBracket
import Almanac.Proofs.MonthOfDay

/-! Moved dates and counted months in order. A date moved by months stays between the first day of
the month it comes to and the first day of the next one, so that a date of a later month never
comes out earlier, and dates of one month keep their order up to the next first. A count of months
is thus decided by one comparison of dates. Main statements: a moved date grows with the months, and
does not fall if the date it is moved from is a later one; the months between two dates do not
become fewer if the date they are counted to is a later one, nor more if the date they are counted
from is. -/

namespace Almanac.MonthShift
open MonthIndex

theorem addMonths_le_firstDay (unixDate months : Int) :
    addMonths unixDate months ≤ firstDay (ofUnix unixDate + months + 1) := by
  rw [addMonths_eq_min]
  exact min_le_right _ _

theorem firstDay_le_addMonths (unixDate months : Int) :
    firstDay (ofUnix unixDate + months) ≤ addMonths unixDate months := by
  obtain ⟨-, -, first, -⟩ := CalendarDate.valid_ofUnix unixDate
  have turn := firstDay_strictMono.monotone (Int.le_add_one (le_refl (ofUnix unixDate + months)))
  rw [addMonths_eq_min]
  refine le_min ?_ turn
  rw [ofUnix]
  omega

theorem monotone_addMonths (months : Int) : Monotone fun unixDate => addMonths unixDate months := by
  intro first second order
  have index : ofUnix first ≤ ofUnix second :=
    firstDay_le_iff.1 ((firstDay_ofUnix_le first).trans order)
  rcases index.lt_or_eq with earlier | same
  · calc addMonths first months
      _ ≤ firstDay (ofUnix first + months + 1) := addMonths_le_firstDay first months
      _ ≤ firstDay (ofUnix second + months) := firstDay_strictMono.monotone (by omega)
      _ ≤ addMonths second months := firstDay_le_addMonths second months
  · have day : (CalendarDate.ofUnix first).day ≤ (CalendarDate.ofUnix second).day := by
      have count := eq_firstDay_add_day first
      have count' := eq_firstDay_add_day second
      rw [same] at count
      omega
    simp only [addMonths_eq_min]
    rw [show ofDate (.ofUnix first) = ofDate (.ofUnix second) from same]
    exact min_le_min_right _ (by omega)

/-- More months make a later date, and of two dates that are moved by the same months the later one
does not come out earlier. -/
theorem addMonths_strictMono_monotone :
    (∀ unixDate, StrictMono (addMonths unixDate)) ∧
      ∀ months, Monotone fun unixDate => addMonths unixDate months :=
  ⟨addMonths_strictMono, monotone_addMonths⟩

theorem brackets_subtractMonths {later earlier : Int} (order : earlier ≤ later) :
    Brackets later earlier (subtractMonths later earlier).1 := by
  rw [subtractMonths, if_neg (by omega)]
  exact (search_probe later earlier _).brackets (addMonths_estimate_le order)

theorem le_subtractMonths_iff {later earlier months : Int} (order : earlier ≤ later) :
    months ≤ (subtractMonths later earlier).1 ↔ addMonths earlier months ≤ later := by
  have mono := addMonths_strictMono earlier
  obtain ⟨reached, passed⟩ := brackets_subtractMonths order
  constructor
  · intro few
    exact (mono.monotone few).trans reached
  · intro within
    have below := mono.lt_iff_lt.1 (within.trans_lt passed)
    omega

theorem subtractMonths_self (unixDate : Int) : (subtractMonths unixDate unixDate).1 = 0 := by
  have start := addMonths_zero unixDate
  have next := addMonths_lt_succ unixDate 0
  rw [start] at next
  exact (brackets_subtractMonths le_rfl).unique ⟨start.le, next⟩

theorem subtractMonths_of_lt {earlier later : Int} (order : earlier < later) :
    (subtractMonths earlier later).1 = -(subtractMonths later earlier).1 := by
  rw [subtractMonths, subtractMonths, if_pos order, if_neg (by omega)]

theorem subtractMonths_swap (date0 date1 : Int) :
    (subtractMonths date0 date1).1 = -(subtractMonths date1 date0).1 := by
  rcases lt_trichotomy date0 date1 with before | rfl | after
  · exact subtractMonths_of_lt before
  · rw [subtractMonths_self, neg_zero]
  · rw [subtractMonths_of_lt after, neg_neg]

theorem subtractMonths_of_brackets {earlier later months : Int} (order : earlier ≤ later)
    (h : Brackets later earlier months) : (subtractMonths earlier later).1 = -months := by
  rw [subtractMonths_swap, h.unique (brackets_subtractMonths order)]

theorem subtractMonths_nonneg {later earlier : Int} (order : earlier ≤ later) :
    0 ≤ (subtractMonths later earlier).1 := by
  rw [le_subtractMonths_iff order, addMonths_zero]
  exact order

theorem subtractMonths_nonpos {later earlier : Int} (order : earlier ≤ later) :
    (subtractMonths earlier later).1 ≤ 0 := by
  rw [subtractMonths_swap]
  exact neg_nonpos.2 (subtractMonths_nonneg order)

section
variable {first second date : Int} (order : first ≤ second)
include order

theorem subtractMonths_le_of_later (start_le : date ≤ first) :
    (subtractMonths first date).1 ≤ (subtractMonths second date).1 := by
  rw [le_subtractMonths_iff (start_le.trans order)]
  exact (brackets_subtractMonths start_le).1.trans order

theorem subtractMonths_le_of_earlier (le_stop : second ≤ date) :
    (subtractMonths date second).1 ≤ (subtractMonths date first).1 := by
  rw [le_subtractMonths_iff (order.trans le_stop)]
  exact (monotone_addMonths _ order).trans (brackets_subtractMonths le_stop).1

end

theorem monotone_subtractMonths (date : Int) :
    Monotone fun other => (subtractMonths other date).1 := by
  intro first second order
  dsimp only
  rcases le_or_gt date first with after | before
  · exact subtractMonths_le_of_later order after
  · rcases le_or_gt date second with after | before'
    · exact (subtractMonths_nonpos before.le).trans (subtractMonths_nonneg after)
    -- both counts go backwards: they are counts from the moving date to the fixed one
    · rw [subtractMonths_swap first, subtractMonths_swap second]
      exact neg_le_neg (subtractMonths_le_of_earlier order before'.le)

theorem antitone_subtractMonths (date : Int) :
    Antitone fun other => (subtractMonths date other).1 := by
  intro first second order
  dsimp only
  rw [subtractMonths_swap date first, subtractMonths_swap date second]
  exact neg_le_neg (monotone_subtractMonths date order)

theorem subtractMonths_monotone_antitone (date : Int) :
    Monotone (fun other => (subtractMonths other date).1) ∧
      Antitone (fun other => (subtractMonths date other).1) :=
  ⟨monotone_subtractMonths date, antitone_subtractMonths date⟩

end Almanac.MonthShift
