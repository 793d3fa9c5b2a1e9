import Almanac.Field
import Almanac.Proofs.PeriodStarts

/-! Periods as EXTRACT and FLOOR tell them apart. A field of years comes from a quotient of the
year, a floor from the first day of a period; both are read off the number of the period that a
date lies in, and no two periods of one kind begin on one day. Main statement: two dates have one
floor if and only if they have the same field, for quarters and months together with the same year,
and the ceiling of a date inside a span of years has the next field. -/

namespace Almanac.Period
open MonthIndex

theorem start_strictMono (period : Period) : StrictMono period.start := by
  intro number later h
  cases period with
  | month => exact firstDay_strictMono h
  | week =>
    simp only [start]
    omega
  | day => exact h
  | _ =>
    apply firstDay_strictMono
    omega

theorem start_eq_start_iff {period : Period} {number number' : Int} :
    period.start number = period.start number' ↔ number = number' :=
  (start_strictMono period).injective.eq_iff

theorem numberOf_start (period : Period) (number : Int) :
    period.numberOf (period.start number) = number :=
  start_eq_start_iff.1 ((gc_start_numberOf period).l_u_l_eq_l number)

theorem floorDate_range (period : Period) (unixDate : Int) :
    floorDate period.range unixDate = .ok (period.floor unixDate) := by
  rw [floorDate, roundBy, ofRange?_range]

theorem ceilDate_range (period : Period) (unixDate : Int) :
    ceilDate period.range unixDate = .ok (period.ceil unixDate) := by
  rw [ceilDate, roundBy, ofRange?_range]

def SpansYears : Period → Prop
  | millennium | century | decade | year => True
  | _ => False

def DividesYear : Period → Prop
  | quarter | month => True
  | _ => False

/-- The number that the field of the period with number 0 has. Centuries and millennia are counted
from 1, decades and years from 0. -/
def fieldOfZero : Period → Int
  | millennium | century => 1
  | _ => 0

theorem spanNumber_eq {length year : Int} (positive : 0 < length) (h : 1 ≤ year) :
    Field.spanNumber length year = (year - 1) / length + 1 := by
  have shift : year + (length - 1) = year - 1 + length * 1 := by omega
  rw [Field.spanNumber, if_pos (by omega), shift, Int.tdiv_eq_ediv_of_nonneg (by omega),
    Int.add_mul_ediv_left _ _ positive.ne']

theorem extractDate_range {period : Period} (spans : period.SpansYears) {unixDate : Int}
    (h : 1 ≤ (CalendarDate.ofUnix unixDate).year) :
    Field.extractDate period.range unixDate =
      .ok (period.numberOf unixDate + period.fieldOfZero) := by
  cases period with
  | millennium => exact congrArg Except.ok (spanNumber_eq (by decide) h)
  | century => exact congrArg Except.ok (spanNumber_eq (by decide) h)
  | decade =>
    have quotient : (CalendarDate.ofUnix unixDate).year.tdiv 10 =
        (CalendarDate.ofUnix unixDate).year / 10 + 0 := by
      rw [Int.tdiv_eq_ediv_of_nonneg (by omega), Int.add_zero]
    exact congrArg Except.ok quotient
  | year => exact congrArg Except.ok (Int.add_zero _).symm
  | _ => cases spans

theorem covers_of_one_le (period : Period) {year : Int} (h : 1 ≤ year) : period.Covers year := by
  cases period with
  | millennium | century | decade =>
    simp only [Covers]
    omega
  | _ => trivial

theorem covers_of_dividesYear {period : Period} (divides : period.DividesYear) (year : Int) :
    period.Covers year := by
  cases period with
  | quarter | month => trivial
  | _ => cases divides

theorem floor_eq_floor_iff {period : Period} {first second : Int}
    (covered : period.Covers (CalendarDate.ofUnix first).year)
    (covered' : period.Covers (CalendarDate.ofUnix second).year) :
    period.floor first = period.floor second ↔
      period.numberOf first = period.numberOf second := by
  rw [(floor_next_eq_start covered).1, (floor_next_eq_start covered').1, start_eq_start_iff]

theorem extractDate_ceil {period : Period} (spans : period.SpansYears) {unixDate : Int}
    (h : 1 ≤ (CalendarDate.ofUnix unixDate).year) (inside : period.floor unixDate ≠ unixDate) :
    Field.extractDate period.range (period.ceil unixDate) =
      .ok (period.numberOf unixDate + period.fieldOfZero + 1) := by
  have next : period.ceil unixDate = period.start (period.numberOf unixDate + 1) := by
    rw [ceil, if_neg inside, (floor_next_eq_start (period.covers_of_one_le h)).2]
  -- the field of the ceiling needs a year of 1 or later there too
  have later : 1 ≤ (CalendarDate.ofUnix (period.ceil unixDate)).year := by
    rw [next]
    exact le_year_iff.2 ((le_year_iff.1 h).trans (lt_start_succ period unixDate).le)
  rw [extractDate_range spans later, next, numberOf_start, add_right_comm]

/-- The field of a quarter or a month, which starts again with each year. -/
def fieldInYear (period : Period) (unixDate : Int) : Int :=
  match period with
  | quarter => ((CalendarDate.ofUnix unixDate).month + 2) / 3
  | month => (CalendarDate.ofUnix unixDate).month
  | _ => 0

theorem extractDate_fieldInYear {period : Period} (divides : period.DividesYear) (unixDate : Int) :
    Field.extractDate period.range unixDate = .ok (period.fieldInYear unixDate) := by
  cases period with
  | quarter => rfl
  | month => rfl
  | _ => cases divides

theorem numberOf_eq_iff_fieldInYear {period : Period} (divides : period.DividesYear)
    {first second : Int} :
    period.numberOf first = period.numberOf second ↔
      (CalendarDate.ofUnix first).year = (CalendarDate.ofUnix second).year ∧
        period.fieldInYear first = period.fieldInYear second := by
  obtain ⟨low, high, -, -⟩ := CalendarDate.valid_ofUnix first
  obtain ⟨low', high', -, -⟩ := CalendarDate.valid_ofUnix second
  cases period with
  | quarter | month =>
    simp only [numberOf, fieldInYear, MonthIndex.ofUnix, ofDate]
    omega
  | _ => cases divides

/-- What a range answers about a date: the first day of its period, and its field. -/
def Answers (range : UnitRange) (unixDate first field : Int) : Prop :=
  floorDate range unixDate = .ok first ∧ Field.extractDate range unixDate = .ok field

instance (range : UnitRange) (unixDate first field : Int) :
    Decidable (Answers range unixDate first field) :=
  inferInstanceAs (Decidable (_ ∧ _))

theorem Answers.unique {range : UnitRange} {unixDate first field first' field' : Int}
    (h : Answers range unixDate first field) (h' : Answers range unixDate first' field') :
    first = first' ∧ field = field' :=
  ⟨Except.ok.inj (h.1.symm.trans h'.1), Except.ok.inj (h.2.symm.trans h'.2)⟩

/-- For two dates of years from 1 on, each range of whole years has one floor if and only if it has
one field, and the next field at the ceiling; for any two dates, quarters and months have one floor
if and only if the year and the field in it are the same. -/
theorem floors_agree_with_fields :
    (∀ period, SpansYears period → ∀ date other,
      1 ≤ (CalendarDate.ofUnix date).year → 1 ≤ (CalendarDate.ofUnix other).year →
      ∃ first field first' field', Answers period.range date first field ∧
        Answers period.range other first' field' ∧ (first = first' ↔ field = field') ∧
        (first ≠ date → ∃ next, ceilDate period.range date = .ok next ∧
          Field.extractDate period.range next = .ok (field + 1))) ∧
    ∀ period, DividesYear period → ∀ date other,
      ∃ first field first' field' year year', Answers period.range date first field ∧
        Answers period.range other first' field' ∧ Field.extractDate .year date = .ok year ∧
        Field.extractDate .year other = .ok year' ∧
        (first = first' ↔ year = year' ∧ field = field') := by
  constructor
  · intro period spans date other years years'
    refine ⟨_, _, _, _, ⟨floorDate_range period date, extractDate_range spans years⟩,
      ⟨floorDate_range period other, extractDate_range spans years'⟩, ?_, fun inside => ?_⟩
    · rw [floor_eq_floor_iff (period.covers_of_one_le years) (period.covers_of_one_le years'),
        add_left_inj]
    · exact ⟨_, ceilDate_range period date, extractDate_ceil spans years inside⟩
  · intro period divides date other
    refine ⟨_, _, _, _, _, _, ⟨floorDate_range period date, extractDate_fieldInYear divides date⟩,
      ⟨floorDate_range period other, extractDate_fieldInYear divides other⟩, rfl, rfl, ?_⟩
    rw [floor_eq_floor_iff (covers_of_dividesYear divides _) (covers_of_dividesYear divides _)]
    exact numberOf_eq_iff_fieldInYear divides

theorem floors_agree_with_fields_turn_of_century :
    SpansYears century ∧ 1 ≤ (CalendarDate.ofUnix (-25203)).year ∧
      1 ≤ (CalendarDate.ofUnix (-25202)).year ∧ Answers .century (-25203) (-61726) 19 ∧
      Answers .century (-25202) (-25202) 20 ∧ ((-61726 : Int) = -25202 ↔ (19 : Int) = 20) ∧
      (∃ next, ceilDate .century (-25203) = .ok next ∧
        Field.extractDate .century next = .ok 20) ∧
      DividesYear quarter ∧ Answers .quarter 17986 17897 1 ∧ Answers .quarter 18352 18262 1 ∧
      ((17897 : Int) = 18262 ↔ (2019 : Int) = 2020 ∧ (1 : Int) = 1) := by
  have spans : SpansYears century := trivial
  have divides : DividesYear quarter := trivial
  have years : 1 ≤ (CalendarDate.ofUnix (-25203)).year := by decide
  have years' : 1 ≤ (CalendarDate.ofUnix (-25202)).year := by decide
  have last : Answers .century (-25203) (-61726) 19 := by decide
  have first : Answers .century (-25202) (-25202) 20 := by decide
  have march : Answers .quarter 17986 17897 1 := by decide
  have march' : Answers .quarter 18352 18262 1 := by decide
  have year : Field.extractDate .year 17986 = .ok 2019 := by decide
  have year' : Field.extractDate .year 18352 = .ok 2020 := by decide
  obtain ⟨_, _, _, _, given, given', centuries, next⟩ :=
    floors_agree_with_fields.1 century spans _ _ years years'
  obtain ⟨rfl, rfl⟩ := given.unique last
  obtain ⟨rfl, rfl⟩ := given'.unique first
  obtain ⟨_, _, _, _, _, _, given, given', taken, taken', quarters⟩ :=
    floors_agree_with_fields.2 quarter divides 17986 18352
  obtain ⟨rfl, rfl⟩ := given.unique march
  obtain ⟨rfl, rfl⟩ := given'.unique march'
  cases taken.symm.trans year
  cases taken'.symm.trans year'
  exact ⟨spans, years, years', last, first, centuries, next (by decide), divides, march, march',
    quarters⟩

end Almanac.Period
