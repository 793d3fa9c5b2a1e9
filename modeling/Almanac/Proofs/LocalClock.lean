import Almanac.LocalRules
import Almanac.Proofs.MonthOfDay

/-! Local clocks and what they show at an instant. Summer time is decided by an instant in one way
and by a reading of the clock in another; both take the changes of one year of the clock. In a
summer that spans New Year the clock may show the next year already when the standard clock does
not, and the two ways take the changes of different years. Main statements: the two ways part only
in the overlap at the end of summer, which the clock shows twice, and any other reading that is
shown tells its instant. -/

namespace Almanac

namespace LocalRules

def newYearReading (year : Int) : Int := MonthIndex.firstDay (12 * year) * secondsPerDay

theorem yearOfReading_eq_iff {reading year : Int} :
    yearOfReading reading = year ↔
      newYearReading year ≤ reading ∧ reading < newYearReading (year + 1) := by
  have fromThis : year ≤ yearOfReading reading ↔ _ := MonthIndex.le_year_iff
  have fromNext : year + 1 ≤ yearOfReading reading ↔ _ := MonthIndex.le_year_iff
  simp only [newYearReading, secondsPerDay] at *
  omega

end LocalRules

namespace ClockChange

/-- A Sunday that every month has, in a month between January and December. -/
def MidYear (change : ClockChange) : Prop :=
  (1 < change.month ∧ change.month < 12) ∧ (1 ≤ change.sunday ∧ change.sunday ≤ 4) ∧
    0 ≤ change.second ∧ change.second < secondsPerDay

instance (change : ClockChange) : Decidable change.MidYear :=
  inferInstanceAs (Decidable (_ ∧ _))

def monthReading (change : ClockChange) (year : Int) : Int :=
  MonthIndex.firstDay (12 * year + change.month - 1) * secondsPerDay

variable {change : ClockChange}

theorem MidYear.reading_bounds (h : change.MidYear) (year : Int) :
    change.monthReading year ≤ change.reading year ∧
      change.reading year < change.monthReading year + 28 * secondsPerDay := by
  obtain ⟨-, ⟨first, last⟩, midnight, inDay⟩ := h
  simp only [reading, date, monthReading, MonthIndex.toUnix_first, secondsPerDay] at *
  omega

theorem monthReading_add_le (change : ClockChange) (year : Int) {month : Int}
    (h : change.month ≤ month) :
    change.monthReading year + 28 * (month - change.month) * secondsPerDay ≤
      MonthIndex.firstDay (12 * year + month - 1) * secondsPerDay := by
  have months := (MonthIndex.firstDay_add (12 * year + change.month - 1)
    (show 0 ≤ month - change.month by omega)).1
  have index : 12 * year + change.month - 1 + (month - change.month) = 12 * year + month - 1 := by
    omega
  rw [index] at months
  simp only [monthReading, secondsPerDay]
  omega

theorem MidYear.newYear_le (h : change.MidYear) (year : Int) :
    LocalRules.newYearReading year + 28 * secondsPerDay ≤ change.reading year := by
  have start := (h.reading_bounds year).1
  obtain ⟨⟨low, -⟩, -⟩ := h
  have months := (MonthIndex.firstDay_add (12 * year) (show 0 ≤ change.month - 1 by omega)).1
  rw [← Int.add_sub_assoc] at months
  simp only [LocalRules.newYearReading, monthReading, secondsPerDay] at *
  omega

theorem MidYear.le_newYear (h : change.MidYear) (year : Int) :
    change.reading year + 28 * secondsPerDay ≤ LocalRules.newYearReading (year + 1) := by
  have start := (h.reading_bounds year).2
  obtain ⟨⟨-, high⟩, -⟩ := h
  have months := change.monthReading_add_le year (show change.month ≤ 13 by omega)
  have index : 12 * year + 13 - 1 = 12 * (year + 1) := by omega
  rw [index] at months
  simp only [LocalRules.newYearReading, secondsPerDay] at *
  omega

theorem MidYear.reading_add_le {later : ClockChange} (h : change.MidYear) (h' : later.MidYear)
    (apart : change.month + 1 < later.month) (year : Int) :
    change.reading year + 28 * secondsPerDay ≤ later.reading year := by
  have start := (h.reading_bounds year).2
  have start' := (h'.reading_bounds year).1
  have months := change.monthReading_add_le year (show change.month ≤ later.month by omega)
  rw [← monthReading] at months
  simp only [secondsPerDay] at *
  omega

end ClockChange

namespace SummerTime

def forward (summer : SummerTime) (standard : Int) : Int := summer.offset - standard

/-- Summer begins and ends away from New Year, and a month or more lies between the months of the
two changes. The clock is put forward by less than a day. -/
structure Regular (summer : SummerTime) (standard : Int) : Prop where
  starts : summer.starts.MidYear
  stops : summer.stops.MidYear
  apart : summer.starts.month + 1 < summer.stops.month ∨
    summer.stops.month + 1 < summer.starts.month
  forward : 0 < summer.forward standard ∧ summer.forward standard < secondsPerDay

variable {summer : SummerTime} {standard : Int}

theorem Regular.newYears (h : summer.Regular standard) (year : Int) :
    LocalRules.newYearReading year + 2 * summer.forward standard ≤ summer.stops.reading year ∧
      summer.stops.reading year < LocalRules.newYearReading (year + 1) ∧
      LocalRules.newYearReading year ≤ summer.starts.reading year ∧
      summer.starts.reading year + 2 * summer.forward standard ≤
        LocalRules.newYearReading (year + 1) := by
  have short := h.forward.2
  have startsAfter := h.starts.newYear_le year
  have stopsAfter := h.stops.newYear_le year
  have startsBefore := h.starts.le_newYear year
  have stopsBefore := h.stops.le_newYear year
  simp only [secondsPerDay] at *
  omega

theorem Regular.within_or_spans (h : summer.Regular standard) :
    (∀ year, summer.starts.reading year + 2 * summer.forward standard ≤
      summer.stops.reading year) ∨
    ∀ year, summer.stops.reading year + 2 * summer.forward standard ≤
      summer.starts.reading year := by
  have short := h.forward.2
  refine h.apart.imp (fun early year => ?_) fun late year => ?_
  · have := h.starts.reading_add_le h.stops early year
    simp only [secondsPerDay] at *
    omega
  · have := h.stops.reading_add_le h.starts late year
    simp only [secondsPerDay] at *
    omega

theorem Regular.apart_readings (h : summer.Regular standard) (year : Int) :
    summer.starts.reading year + 2 * summer.forward standard ≤ summer.stops.reading year ∨
      summer.stops.reading year + 2 * summer.forward standard ≤ summer.starts.reading year :=
  h.within_or_spans.imp (fun within => within year) fun spans => spans year

end SummerTime

namespace LocalRules

theorem inSeason_of_lt {start stop : Int} (h : start < stop) (reading : Int) :
    InSeason start stop reading ↔ start ≤ reading ∧ reading < stop := by
  rw [InSeason, if_pos h]

theorem inSeason_of_le {start stop : Int} (h : stop ≤ start) (reading : Int) :
    InSeason start stop reading ↔ reading < stop ∨ start ≤ reading := by
  rw [InSeason, if_neg (Int.not_lt.2 h)]

section
variable {start stop forward reading : Int} (positive : 0 < forward)
  (apart : start + 2 * forward ≤ stop ∨ stop + 2 * forward ≤ start)
include positive apart

theorem inSeason_add (h : InSeason start (stop - forward) reading) :
    InSeason start stop (reading + forward) := by
  rcases apart with within | spans
  · rw [inSeason_of_lt (by omega)] at h ⊢
    omega
  · rw [inSeason_of_le (by omega)] at h ⊢
    omega

theorem not_inSeason (h : ¬InSeason start (stop - forward) reading)
    (outside : ¬(stop - forward ≤ reading ∧ reading < stop)) : ¬InSeason start stop reading := by
  rcases apart with within | spans
  · rw [inSeason_of_lt (by omega)] at h ⊢
    omega
  · rw [inSeason_of_le (by omega)] at h ⊢
    omega

theorem inSeason_of_overlap (h : stop - forward ≤ reading ∧ reading < stop) :
    InSeason start (stop - forward) (reading - forward) ∧
      ¬InSeason start (stop - forward) reading := by
  rcases apart with within | spans
  · rw [inSeason_of_lt (by omega), inSeason_of_lt (by omega)]
    omega
  · rw [inSeason_of_le (by omega), inSeason_of_le (by omega)]
    omega

end

def shownAt (rules : LocalRules) (instant : Int) : Int := instant + rules.offsetAtInstant instant

/-- The clock shows the reading in summer and, after it was set back at the end of summer, again. -/
def InOverlap (rules : LocalRules) (reading : Int) : Prop :=
  ∃ summer ∈ rules.summer?,
    let stop := summer.stops.reading (yearOfReading reading)
    stop - summer.forward rules.offset ≤ reading ∧ reading < stop

instance (rules : LocalRules) (reading : Int) : Decidable (rules.InOverlap reading) := by
  unfold InOverlap
  infer_instance

/-- Instants found for readings; where one instant alone has the reading, it is found. -/
def FindsInstants (rules : LocalRules) (instantOf : Int → Int) : Prop :=
  ∀ instant, (∀ other, rules.shownAt other = rules.shownAt instant → other = instant) →
    instantOf (rules.shownAt instant) = instant

theorem shownAt_of_some {rules : LocalRules} {summer : SummerTime} {instant : Int}
    (h : rules.summerAtInstant? instant = some summer) :
    rules.shownAt instant = instant + summer.offset := by
  rw [shownAt, offsetAtInstant, h]
  rfl

theorem shownAt_of_none {rules : LocalRules} {instant : Int}
    (h : rules.summerAtInstant? instant = none) :
    rules.shownAt instant = instant + rules.offset := by
  rw [shownAt, offsetAtInstant, h]
  rfl

section
variable {rules : LocalRules} {summer : SummerTime} (known : rules.summer? = some summer)
include known

theorem summerAtReading?_eq {year reading : Int} (h : yearOfReading reading = year) :
    rules.summerAtReading? reading =
      if InSeason (summer.starts.reading year) (summer.stops.reading year) reading then some summer
      else none := by
  subst h
  simp [summerAtReading?, known, Option.filter_some]

theorem summerAtInstant?_eq {year instant : Int}
    (h : yearOfReading (instant + rules.offset) = year) :
    rules.summerAtInstant? instant =
      if InSeason (summer.starts.reading year)
        (summer.stops.reading year - summer.forward rules.offset) (instant + rules.offset)
      then some summer else none := by
  subst h
  simp only [summerAtInstant?, known, Option.filter_some, decide_eq_true_eq]
  rfl

theorem summerAtInstant?_eq_some_iff {year instant : Int}
    (h : yearOfReading (instant + rules.offset) = year) :
    rules.summerAtInstant? instant = some summer ↔
      InSeason (summer.starts.reading year)
        (summer.stops.reading year - summer.forward rules.offset) (instant + rules.offset) := by
  rw [summerAtInstant?_eq known h]
  split <;> simp [*]

theorem summerAtInstant?_eq_none_iff {year instant : Int}
    (h : yearOfReading (instant + rules.offset) = year) :
    rules.summerAtInstant? instant = none ↔
      ¬InSeason (summer.starts.reading year)
        (summer.stops.reading year - summer.forward rules.offset) (instant + rules.offset) := by
  rw [summerAtInstant?_eq known h]
  split <;> simp [*]

theorem inOverlap_iff {year reading : Int} (h : yearOfReading reading = year) :
    rules.InOverlap reading ↔
      summer.stops.reading year - summer.forward rules.offset ≤ reading ∧
        reading < summer.stops.reading year := by
  subst h
  simp [InOverlap, known]

variable (regular : summer.Regular rules.offset)
include regular

theorem summerAtReading?_of_inForce {instant : Int}
    (inForce : rules.summerAtInstant? instant = some summer) :
    rules.summerAtReading? (rules.shownAt instant) = some summer := by
  have positive := regular.forward.1
  have shown : rules.shownAt instant = instant + rules.offset + summer.forward rules.offset := by
    rw [shownAt_of_some inForce, SummerTime.forward]
    omega
  obtain ⟨year, inYear⟩ : ∃ year, yearOfReading (instant + rules.offset) = year := ⟨_, rfl⟩
  have season := (summerAtInstant?_eq_some_iff known inYear).1 inForce
  have bounds := yearOfReading_eq_iff.1 inYear
  rw [shown]
  -- the clock's year is that of the standard clock, or the next one
  by_cases passed :
    newYearReading (year + 1) ≤ instant + rules.offset + summer.forward rules.offset
  · have newYears := regular.newYears year
    have next := regular.newYears (year + 1)
    have nextYear : yearOfReading (instant + rules.offset + summer.forward rules.offset) =
        year + 1 := by
      rw [yearOfReading_eq_iff]
      omega
    rw [summerAtReading?_eq known nextYear, if_pos]
    rcases regular.within_or_spans with within | spans
    -- a summer within the year has ended before New Year
    · have here := within year
      rw [inSeason_of_lt (by omega)] at season
      omega
    · have there := spans (year + 1)
      rw [inSeason_of_le (by omega)]
      omega
  · have sameYear : yearOfReading (instant + rules.offset + summer.forward rules.offset) =
        year := by
      rw [yearOfReading_eq_iff]
      omega
    rw [summerAtReading?_eq known sameYear, if_pos]
    exact inSeason_add positive (regular.apart_readings year) season

theorem summerAtReading?_of_standard {instant : Int}
    (standard : rules.summerAtInstant? instant = none)
    (outside : ¬rules.InOverlap (rules.shownAt instant)) :
    rules.summerAtReading? (rules.shownAt instant) = none := by
  have shown := shownAt_of_none standard
  obtain ⟨year, inYear⟩ : ∃ year, yearOfReading (instant + rules.offset) = year := ⟨_, rfl⟩
  have season := (summerAtInstant?_eq_none_iff known inYear).1 standard
  rw [← shown] at inYear season
  rw [inOverlap_iff known inYear] at outside
  rw [summerAtReading?_eq known inYear, if_neg]
  exact not_inSeason regular.forward.1 (regular.apart_readings year) season outside

theorem shownAt_of_inOverlap {reading : Int} (h : rules.InOverlap reading) :
    rules.shownAt (reading - summer.offset) = reading ∧
      rules.shownAt (reading - rules.offset) = reading := by
  obtain ⟨year, inYear⟩ : ∃ year, yearOfReading reading = year := ⟨_, rfl⟩
  rw [inOverlap_iff known inYear] at h
  obtain ⟨season, noSeason⟩ :=
    inSeason_of_overlap regular.forward.1 (regular.apart_readings year) h
  constructor
  · have newYears := regular.newYears year
    have bounds := yearOfReading_eq_iff.1 inYear
    have positive := regular.forward.1
    have clock : reading - summer.forward rules.offset =
        reading - summer.offset + rules.offset := by
      unfold SummerTime.forward
      omega
    have sameYear : yearOfReading (reading - summer.forward rules.offset) = year := by
      rw [yearOfReading_eq_iff]
      omega
    rw [clock] at sameYear season
    rw [shownAt_of_some ((summerAtInstant?_eq_some_iff known sameYear).2 season)]
    omega
  · rw [← Int.sub_add_cancel reading rules.offset] at inYear noSeason
    rw [shownAt_of_none ((summerAtInstant?_eq_none_iff known inYear).2 noSeason)]
    omega

end

/-- The summer time of the rules, if they have one, is regular, and no offset reaches a day. -/
structure Regular (rules : LocalRules) : Prop where
  summer : ∀ summer ∈ rules.summer?, summer.Regular rules.offset
  short : ∀ offset ∈ rules.offset :: (rules.summer?.map (·.offset)).toList,
    -secondsPerDay < offset ∧ offset < secondsPerDay

theorem regular_of_noSummer {rules : LocalRules} (h : rules.summer? = none)
    (short : -secondsPerDay < rules.offset ∧ rules.offset < secondsPerDay) : rules.Regular where
  summer := by simp [h]
  short := by simpa [h] using short

theorem regular_newYork : newYork.Regular := by
  refine ⟨?_, by decide⟩
  rintro summer ⟨⟩
  exact ⟨by decide, by decide, by decide, by decide⟩

theorem regular_sydney : sydney.Regular := by
  refine ⟨?_, by decide⟩
  rintro summer ⟨⟩
  exact ⟨by decide, by decide, by decide, by decide⟩

theorem regular_of_ofCode? {code : Text} {rules : LocalRules} (h : ofCode? code = some rules) :
    rules.Regular := by
  obtain ⟨front, rest, listed, -⟩ := List.lookup_eq_some_iff.1 h
  have member : (code, rules) ∈ front ++ (code, rules) :: rest := List.mem_append_cons_self
  rw [← listed] at member
  simp only [List.mem_cons, Prod.mk.injEq, List.not_mem_nil, or_false] at member
  rcases member with ⟨-, rfl⟩ | ⟨-, rfl⟩ | ⟨-, rfl⟩ | ⟨-, rfl⟩ | ⟨-, rfl⟩
  · exact regular_of_noSummer rfl (by decide)
  · exact regular_newYork
  · exact regular_sydney
  · exact regular_of_noSummer rfl (by decide)
  · exact regular_of_noSummer rfl (by decide)

section
variable {rules : LocalRules} (regular : rules.Regular) {instant : Int}
include regular

theorem Regular.offsetAtInstant_short (instant : Int) :
    -secondsPerDay < rules.offsetAtInstant instant ∧
      rules.offsetAtInstant instant < secondsPerDay := by
  apply regular.short
  rw [offsetAtInstant, summerAtInstant?]
  cases rules.summer? with
  | none => simp [offsetOf]
  | some summer =>
    rw [Option.filter_some]
    split <;> simp [offsetOf]

theorem Regular.summerAtReading?_shownAt (outside : ¬rules.InOverlap (rules.shownAt instant)) :
    rules.summerAtReading? (rules.shownAt instant) = rules.summerAtInstant? instant := by
  cases known : rules.summer? with
  | none => simp [summerAtReading?, summerAtInstant?, known]
  | some summer =>
    cases inForce : rules.summerAtInstant? instant with
    | none => exact summerAtReading?_of_standard known (regular.summer summer known) inForce outside
    | some other =>
      have same : other = summer := by
        rw [summerAtInstant?, known] at inForce
        exact (Option.some_inj.1 (Option.eq_some_of_filter_eq_some inForce)).symm
      subst same
      exact summerAtReading?_of_inForce known (regular.summer other known) inForce

theorem Regular.offsetAtReading_shownAt (outside : ¬rules.InOverlap (rules.shownAt instant)) :
    rules.offsetAtReading (rules.shownAt instant) = rules.offsetAtInstant instant := by
  rw [offsetAtReading, offsetAtInstant, regular.summerAtReading?_shownAt outside]

theorem Regular.eq_of_shownAt_eq (outside : ¬rules.InOverlap (rules.shownAt instant)) {other : Int}
    (same : rules.shownAt other = rules.shownAt instant) : other = instant := by
  have offset := regular.offsetAtReading_shownAt outside
  have offset' := regular.offsetAtReading_shownAt (same ▸ outside)
  rw [same, offset] at offset'
  unfold shownAt at same
  omega

theorem Regular.inOverlap_iff_shown_twice {reading : Int} :
    rules.InOverlap reading ↔ ∃ first second, first ≠ second ∧
      rules.shownAt first = reading ∧ rules.shownAt second = reading := by
  constructor
  · intro overlap
    obtain ⟨summer, known, -⟩ := id overlap
    have positive := (regular.summer summer known).forward.1
    have shown := shownAt_of_inOverlap known (regular.summer summer known) overlap
    refine ⟨_, _, ?_, shown⟩
    unfold SummerTime.forward at positive
    omega
  · rintro ⟨first, second, different, rfl, same⟩
    by_contra outside
    exact different (regular.eq_of_shownAt_eq outside same).symm

theorem Regular.findsInstants_sub_offsetAtReading :
    rules.FindsInstants fun reading => reading - rules.offsetAtReading reading := by
  intro instant once
  have outside : ¬rules.InOverlap (rules.shownAt instant) := by
    rw [regular.inOverlap_iff_shown_twice]
    rintro ⟨first, second, different, shown, shown'⟩
    exact different ((once first shown).trans (once second shown').symm)
  simp only [regular.offsetAtReading_shownAt outside]
  exact Int.add_sub_cancel _ _

end

theorem savingAt_eq (rules : LocalRules) (reading : Int) :
    rules.savingAt (some reading) = rules.offsetAtReading reading - rules.offset := by
  unfold savingAt
  split
  · rfl
  · next standard =>
    rw [Option.bind_some] at standard
    rw [offsetAtReading, standard]
    exact (Int.sub_self _).symm

end LocalRules

end Almanac
