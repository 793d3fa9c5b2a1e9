import Almanac.Period
import Almanac.Proofs.MonthOfDay

/-! The dates that begin calendar periods. Periods of one kind are numbered one after the other;
the first day of the one with a given number and the number of the one that a date lies in form a
Galois connection, proved for all kinds from the months of the calendar or from the count of days.
Where division towards zero comes to the same number as division towards negative infinity, the
floor of a date is the first day of its period, and the ceiling is the date itself or the first day
of the next period; for years, quarters and months the next one is found by carrying year and month.
Main statement: these are the last beginning of a period that is not after the date and the first
one that is not before it. -/

namespace Almanac.Period
open MonthIndex

/-- Dates that begin a period: 1 January of the years that centuries and millennia count from, or
of a multiple of ten years; any 1 January; the first of January, April, July or October; the first
of any month; a Sunday; any day. -/
def Begins (period : Period) (unixDate : Int) : Prop :=
  let date := CalendarDate.ofUnix unixDate
  match period with
  | millennium => date.year % 1000 = 1 ∧ date.month = 1 ∧ date.day = 1
  | century => date.year % 100 = 1 ∧ date.month = 1 ∧ date.day = 1
  | decade => date.year % 10 = 0 ∧ date.month = 1 ∧ date.day = 1
  | year => date.month = 1 ∧ date.day = 1
  | quarter => (date.month = 1 ∨ date.month = 4 ∨ date.month = 7 ∨ date.month = 10) ∧ date.day = 1
  | month => date.day = 1
  | week => IsoWeek.daysSinceSunday (unixDate + epochJulian) = 0
  | day => True

/-- The years from which on spans of years are told apart by division towards zero. -/
def Covers (period : Period) (year : Int) : Prop :=
  match period with
  | millennium => -999 ≤ year
  | century => -99 ≤ year
  | decade => 0 ≤ year
  | _ => True

def range : Period → UnitRange
  | millennium => .millennium
  | century => .century
  | decade => .decade
  | year => .year
  | quarter => .quarter
  | month => .month
  | week => .week
  | day => .day

theorem ofRange?_range (period : Period) : ofRange? period.range = some period := by
  cases period <;> rfl

def start (period : Period) (number : Int) : Int :=
  match period with
  | millennium => firstDay (12 * (1000 * number + 1))
  | century => firstDay (12 * (100 * number + 1))
  | decade => firstDay (12 * (10 * number))
  | year => firstDay (12 * number)
  | quarter => firstDay (3 * number)
  | month => firstDay number
  | week => 7 * number - 4
  | day => number

def numberOf (period : Period) (unixDate : Int) : Int :=
  let date := CalendarDate.ofUnix unixDate
  match period with
  | millennium => (date.year - 1) / 1000
  | century => (date.year - 1) / 100
  | decade => date.year / 10
  | year => date.year
  | quarter => MonthIndex.ofUnix unixDate / 3
  | month => MonthIndex.ofUnix unixDate
  | week => (unixDate + 4) / 7
  | day => unixDate

theorem gc_start_numberOf (period : Period) : GaloisConnection period.start period.numberOf := by
  intro number unixDate
  have bounds := twelve_mul_year_bounds unixDate
  cases period with
  | month => exact firstDay_le_iff
  | week =>
    simp only [start, numberOf]
    omega
  | day => exact Iff.rfl
  | _ =>
    simp only [start, numberOf, firstDay_le_iff]
    omega

theorem begins_iff {period : Period} {unixDate : Int} :
    period.Begins unixDate ↔ period.start (period.numberOf unixDate) = unixDate := by
  obtain ⟨low, high, -, -⟩ := CalendarDate.valid_ofUnix unixDate
  cases period with
  | month => simp only [Begins, start, numberOf, firstDay_eq_iff, true_and]
  | week =>
    simp only [Begins, start, numberOf, IsoWeek.daysSinceSunday, epochJulian]
    omega
  | day => simp only [Begins, start, numberOf]
  | _ =>
    simp only [Begins, start, numberOf, firstDay_eq_iff]
    simp only [MonthIndex.ofUnix, ofDate]
    omega

theorem newYear_eq_firstDay (year : Int) : newYear year = firstDay (12 * year) := by
  have january : ofDate ⟨year, 1, 1⟩ = 12 * year := by
    simp only [ofDate]
    omega
  rw [newYear, toUnix_eq, january]
  exact add_zero _

theorem lastYear_eq {length year : Int} (positive : 0 < length) (h : 1 - length ≤ year) :
    lastYear length year = length * ((year - 1) / length + 1) := by
  have shift : year + (length - 1) = year - 1 + length * 1 := by omega
  rw [lastYear, Int.tdiv_eq_ediv_of_nonneg (by omega), shift,
    Int.add_mul_ediv_left _ _ positive.ne']

theorem floor_next_eq_start {period : Period} {unixDate : Int}
    (covered : period.Covers (CalendarDate.ofUnix unixDate).year) :
    period.floor unixDate = period.start (period.numberOf unixDate) ∧
      period.next unixDate = period.start (period.numberOf unixDate + 1) := by
  obtain ⟨low, high, -, -⟩ := CalendarDate.valid_ofUnix unixDate
  cases period with
  | millennium =>
    simp only [floor, next, start, numberOf, newYear_eq_firstDay,
      lastYear_eq (by decide) (show (1 - 1000 : Int) ≤ _ from covered), and_true]
    congr 1
    omega
  | century =>
    simp only [floor, next, start, numberOf, newYear_eq_firstDay,
      lastYear_eq (by decide) (show (1 - 100 : Int) ≤ _ from covered), and_true]
    congr 1
    omega
  | decade =>
    simp only [floor, next, start, numberOf, newYear_eq_firstDay,
      Int.tdiv_eq_ediv_of_nonneg covered, and_true]
  | year => exact ⟨newYear_eq_firstDay _, newYear_eq_firstDay _⟩
  | quarter =>
    have quarterStart : 12 * (CalendarDate.ofUnix unixDate).year +
        ((CalendarDate.ofUnix unixDate).month - 1) / 3 * 3 =
        3 * (MonthIndex.ofUnix unixDate / 3) := by
      unfold MonthIndex.ofUnix ofDate
      omega
    simp only [floor, next, start, numberOf, quarterStart, mul_add, mul_one, and_true]
  | month => exact ⟨rfl, rfl⟩
  | week =>
    simp only [floor, next, start, numberOf, IsoWeek.daysSinceSunday, epochJulian]
    omega
  | day => exact ⟨rfl, rfl⟩

theorem floor_eq_self_iff {period : Period} {unixDate : Int}
    (covered : period.Covers (CalendarDate.ofUnix unixDate).year) :
    period.floor unixDate = unixDate ↔ period.Begins unixDate := by
  rw [(floor_next_eq_start covered).1, begins_iff]

theorem floor_quarter_month (unixDate : Int) :
    let date := CalendarDate.ofUnix unixDate
    quarter.floor unixDate = CalendarDate.toUnix ⟨date.year, (date.month - 1) / 3 * 3 + 1, 1⟩ ∧
      month.floor unixDate = CalendarDate.toUnix ⟨date.year, date.month, 1⟩ := by
  simp only [toUnix_first]
  refine ⟨congrArg firstDay ?_, rfl⟩
  omega

/-- The first day that is not before a date, of a year, quarter or month: the year or month is the
next one unless the date begins it, and behind December the year is carried. -/
def carry (period : Period) (date : CalendarDate) : CalendarDate :=
  match period with
  | year => if 1 < date.month ∨ 1 < date.day then ⟨date.year + 1, 1, 1⟩ else ⟨date.year, 1, 1⟩
  | quarter =>
    let quarter := (date.month - 1) / 3
    if quarter * 3 < date.month - 1 ∨ 1 < date.day then
      if quarter = 3 then ⟨date.year + 1, 1, 1⟩ else ⟨date.year, quarter * 3 + 4, 1⟩
    else ⟨date.year, date.month, 1⟩
  | month =>
    if 1 < date.day then
      if 12 < date.month + 1 then ⟨date.year + 1, 1, 1⟩ else ⟨date.year, date.month + 1, 1⟩
    else ⟨date.year, date.month, 1⟩
  | _ => date

theorem carry_of_begins {period : Period} {unixDate : Int} (h : period.Begins unixDate) :
    carry period (.ofUnix unixDate) = .ofUnix unixDate := by
  unfold Begins at h
  generalize CalendarDate.ofUnix unixDate = date at *
  cases period with
  | year | quarter | month =>
    simp only [carry]
    rw [if_neg (by omega)]
    cases date
    simp_all
  | _ => rfl

theorem next_eq_carry {period : Period} {unixDate : Int}
    (months : period = year ∨ period = quarter ∨ period = month) (h : ¬period.Begins unixDate) :
    period.next unixDate = (carry period (.ofUnix unixDate)).toUnix := by
  obtain ⟨low, high, first, -⟩ := CalendarDate.valid_ofUnix unixDate
  unfold Begins at h
  rcases months with rfl | rfl | rfl
  · simp only [carry]
    rw [if_pos (by omega)]
    rfl
  · simp only [carry]
    rw [if_pos (by omega)]
    split
    all_goals
      rw [toUnix_first]
      refine congrArg firstDay ?_
      omega
  · simp only [carry]
    rw [if_pos (by omega)]
    split
    all_goals
      rw [toUnix_first]
      refine congrArg firstDay ?_
      unfold ofDate
      omega

theorem ceil_eq_toUnix_carry {period : Period} (unixDate : Int)
    (months : period = year ∨ period = quarter ∨ period = month) :
    period.ceil unixDate = (carry period (.ofUnix unixDate)).toUnix := by
  have covered : period.Covers (CalendarDate.ofUnix unixDate).year := by
    rcases months with rfl | rfl | rfl <;> trivial
  by_cases begins : period.Begins unixDate
  · rw [ceil_of_floor_eq ((floor_eq_self_iff covered).2 begins), carry_of_begins begins,
      CalendarDate.toUnix_ofUnix]
  · rw [ceil, if_neg (mt (floor_eq_self_iff covered).1 begins), next_eq_carry months begins]

theorem ceil_week (unixDate : Int) :
    let since := IsoWeek.daysSinceSunday (unixDate + epochJulian)
    week.ceil unixDate = unixDate - if 0 < since then since - 7 else since := by
  simp only [ceil, floor, next, IsoWeek.daysSinceSunday]
  omega

theorem isGreatest_start (period : Period) (unixDate : Int) :
    IsGreatest {date | period.Begins date ∧ date ≤ unixDate}
      (period.start (period.numberOf unixDate)) := by
  have gc := gc_start_numberOf period
  refine ⟨⟨begins_iff.2 (gc.l_u_l_eq_l _), gc.l_u_le unixDate⟩, ?_⟩
  rintro first ⟨begins, notAfter⟩
  rw [← begins_iff.1 begins]
  exact gc.monotone_l (gc.monotone_u notAfter)

theorem lt_start_succ (period : Period) (unixDate : Int) :
    unixDate < period.start (period.numberOf unixDate + 1) := by
  by_contra reached
  have := (gc_start_numberOf period _ _).1 (Int.not_lt.1 reached)
  omega

theorem isLeast_start_succ {period : Period} {unixDate : Int} (h : ¬period.Begins unixDate) :
    IsLeast {date | period.Begins date ∧ unixDate ≤ date}
      (period.start (period.numberOf unixDate + 1)) := by
  have gc := gc_start_numberOf period
  refine ⟨⟨begins_iff.2 (gc.l_u_l_eq_l _), (lt_start_succ period unixDate).le⟩, ?_⟩
  rintro first ⟨begins, notBefore⟩
  have different : unixDate ≠ first := by
    rintro rfl
    exact h begins
  rw [← begins_iff.1 begins] at notBefore different ⊢
  apply gc.monotone_l
  by_contra early
  exact different (notBefore.antisymm ((gc _ _).2 (Int.le_of_lt_add_one (Int.not_le.1 early))))

theorem isLeast_self {period : Period} {unixDate : Int} (h : period.Begins unixDate) :
    IsLeast {date | period.Begins date ∧ unixDate ≤ date} unixDate :=
  ⟨⟨h, le_rfl⟩, fun _ other => other.2⟩

/-- Every range that names a period rounds a date down to the last beginning of such a period that
is not after it, and up to the first one that is not before it. -/
theorem floorDate_ceilDate_nearest (period : Period) {unixDate : Int}
    (covered : period.Covers (CalendarDate.ofUnix unixDate).year) :
    ∃ first next, floorDate period.range unixDate = .ok first ∧
      ceilDate period.range unixDate = .ok next ∧
      IsGreatest {date | period.Begins date ∧ date ≤ unixDate} first ∧
      IsLeast {date | period.Begins date ∧ unixDate ≤ date} next := by
  obtain ⟨down, up⟩ := floor_next_eq_start covered
  have greatest := isGreatest_start period unixDate
  rw [← down] at greatest
  refine ⟨period.floor unixDate, period.ceil unixDate, ?_, ?_, greatest, ?_⟩
  · rw [floorDate, roundBy, ofRange?_range]
  · rw [ceilDate, roundBy, ofRange?_range]
  · rw [ceil, down]
    split
    · next begins => exact isLeast_self (begins_iff.2 begins)
    · next inside =>
      rw [up]
      exact isLeast_start_succ fun begins => inside (begins_iff.1 begins)

theorem floorDate_ceilDate_nearest_century :
    century.Covers (CalendarDate.ofUnix (-737595)).year ∧
      floorDate .century (-737595) = .ok (-755687) ∧ ceilDate .century (-737595) = .ok (-719162) ∧
      IsGreatest {date | century.Begins date ∧ date ≤ -737595} (-755687) ∧
      IsLeast {date | century.Begins date ∧ -737595 ≤ date} (-719162) := by
  have covered : century.Covers (CalendarDate.ofUnix (-737595)).year := by
    simp only [Covers]
    decide
  have down : floorDate .century (-737595) = .ok (-755687) := by decide
  have up : ceilDate .century (-737595) = .ok (-719162) := by decide
  obtain ⟨first, next, floored, ceiled, greatest, least⟩ :=
    floorDate_ceilDate_nearest .century covered
  cases down.symm.trans floored
  cases up.symm.trans ceiled
  exact ⟨covered, down, up, greatest, least⟩

end Almanac.Period
