import Almanac.Proofs.FloorSides
import Almanac.Proofs.TimestampOrder

/-! Timestamps rounded to calendar periods. The nearest midnights that begin periods are the
midnights of the nearest dates that do: before a timestamp those of its date, after it those of the
first midnight from the timestamp on. A midnight that begins a period is nearest to itself, and
rounding keeps it if its year is covered, which the years that rounding comes to are. Main
statement: the floor of a timestamp is the last midnight that begins a period and is not after it,
the ceiling the first one that is not before it, and neither is rounded any further. -/

namespace Almanac.Period
open MonthIndex Timestamp

def BeginsAt (period : Period) (timestamp : Int) : Prop :=
  time timestamp = 0 ∧ period.Begins (date timestamp)

theorem beginsAt_midnight_iff {period : Period} {unixDate : Int} :
    period.BeginsAt (onDate unixDate 0) ↔ period.Begins unixDate := by
  rw [BeginsAt, time_midnight, date_midnight, eq_self, true_and]

theorem covers_of_le {period : Period} {unixDate later : Int}
    (covered : period.Covers (CalendarDate.ofUnix unixDate).year) (order : unixDate ≤ later) :
    period.Covers (CalendarDate.ofUnix later).year := by
  have years : (CalendarDate.ofUnix unixDate).year ≤ (CalendarDate.ofUnix later).year :=
    le_year_iff.2 ((le_year_iff.1 le_rfl).trans order)
  cases period with
  | millennium | century | decade => exact le_trans covered years
  | year | quarter | month | week | day => trivial

theorem covers_iff_of_numberOf_eq {period : Period} {first second : Int}
    (h : period.numberOf first = period.numberOf second) :
    period.Covers (CalendarDate.ofUnix first).year ↔
      period.Covers (CalendarDate.ofUnix second).year := by
  cases period with
  | millennium | century | decade =>
    simp only [numberOf] at h
    simp only [Covers]
    omega
  | year | quarter | month | week | day => exact Iff.rfl

theorem covers_floor {period : Period} {unixDate : Int}
    (covered : period.Covers (CalendarDate.ofUnix unixDate).year) :
    period.Covers (CalendarDate.ofUnix (period.floor unixDate)).year := by
  rw [(floor_next_eq_start covered).1]
  exact (covers_iff_of_numberOf_eq (numberOf_start period _)).2 covered

section
variable {period : Period} {timestamp : Int}
  (covered : period.Covers (CalendarDate.ofUnix (date timestamp)).year)
include covered

theorem isGreatest_floorTimestamp :
    IsGreatest {midnight | period.BeginsAt midnight ∧ midnight ≤ timestamp}
      (period.floorTimestamp timestamp) := by
  obtain ⟨⟨begins, notAfter⟩, greatest⟩ := isGreatest_floor covered
  refine ⟨⟨beginsAt_midnight_iff.2 begins, midnight_le_iff.2 notAfter⟩, ?_⟩
  rintro other ⟨⟨midnight, begins'⟩, notAfter'⟩
  rw [← midnight_of_time_eq_zero midnight, midnight_le_iff] at notAfter'
  rw [← midnight_of_time_eq_zero midnight, floorTimestamp, midnight_le_iff, date_midnight]
  exact greatest ⟨begins', notAfter'⟩

theorem isLeast_ceilTimestamp :
    IsLeast {midnight | period.BeginsAt midnight ∧ timestamp ≤ midnight}
      (period.ceilTimestamp timestamp) := by
  have covered' := covers_of_le covered (date_le_dateFrom timestamp)
  obtain ⟨⟨begins, notBefore⟩, least⟩ := isLeast_ceil covered'
  refine ⟨⟨beginsAt_midnight_iff.2 begins, le_midnight_iff.2 notBefore⟩, ?_⟩
  rintro other ⟨⟨midnight, begins'⟩, notBefore'⟩
  rw [← midnight_of_time_eq_zero midnight, le_midnight_iff] at notBefore'
  rw [← midnight_of_time_eq_zero midnight]
  exact midnight_le_iff.2 ((least ⟨begins', notBefore'⟩).trans_eq (date_midnight _).symm)

theorem floorTimestamp_of_beginsAt (begins : period.BeginsAt timestamp) :
    period.floorTimestamp timestamp = timestamp :=
  (isGreatest_floorTimestamp covered).unique ⟨⟨begins, le_rfl⟩, fun _ other => other.2⟩

theorem ceilTimestamp_of_beginsAt (begins : period.BeginsAt timestamp) :
    period.ceilTimestamp timestamp = timestamp :=
  (isLeast_ceilTimestamp covered).unique ⟨⟨begins, le_rfl⟩, fun _ other => other.2⟩

theorem covers_floorTimestamp :
    period.Covers (CalendarDate.ofUnix (date (period.floorTimestamp timestamp))).year := by
  rw [floorTimestamp, date_midnight]
  exact covers_floor covered

theorem covers_ceilTimestamp :
    period.Covers (CalendarDate.ofUnix (date (period.ceilTimestamp timestamp))).year :=
  covers_of_le covered (date_mono (isLeast_ceilTimestamp covered).1.2)

end

theorem floorMoment_range (period : Period) (timestamp : Int) :
    floorMoment period.range timestamp = .ok (period.floorTimestamp timestamp) := by
  rw [floorMoment, roundBy, ofRange?_range]

theorem ceilMoment_range (period : Period) (timestamp : Int) :
    ceilMoment period.range timestamp = .ok (period.ceilTimestamp timestamp) := by
  rw [ceilMoment, roundBy, ofRange?_range]

def Keeps (range : UnitRange) (timestamp : Int) : Prop :=
  floorMoment range timestamp = .ok timestamp ∧ ceilMoment range timestamp = .ok timestamp

theorem keeps_of_beginsAt {period : Period} {timestamp : Int}
    (covered : period.Covers (CalendarDate.ofUnix (date timestamp)).year)
    (begins : period.BeginsAt timestamp) : Keeps period.range timestamp := by
  constructor
  · rw [floorMoment_range, floorTimestamp_of_beginsAt covered begins]
  · rw [ceilMoment_range, ceilTimestamp_of_beginsAt covered begins]

/-- Every range that names a period rounds a timestamp down to the last midnight that begins such a
period and is not after it, and up to the first one that is not before it, and keeps both. -/
theorem floorMoment_ceilMoment_nearest (period : Period) {timestamp : Int}
    (covered : period.Covers (CalendarDate.ofUnix (date timestamp)).year) :
    ∃ first next, floorMoment period.range timestamp = .ok first ∧
      ceilMoment period.range timestamp = .ok next ∧
      IsGreatest {midnight | period.BeginsAt midnight ∧ midnight ≤ timestamp} first ∧
      IsLeast {midnight | period.BeginsAt midnight ∧ timestamp ≤ midnight} next ∧
      Keeps period.range first ∧ Keeps period.range next := by
  have greatest := isGreatest_floorTimestamp covered
  have least := isLeast_ceilTimestamp covered
  exact ⟨_, _, floorMoment_range period timestamp, ceilMoment_range period timestamp, greatest,
    least, keeps_of_beginsAt (covers_floorTimestamp covered) greatest.1.1,
    keeps_of_beginsAt (covers_ceilTimestamp covered) least.1.1⟩

theorem floorMoment_ceilMoment_nearest_last_day :
    century.Covers (CalendarDate.ofUnix (date (-62135640000000))).year ∧
      floorMoment .century (-62135640000000) = .ok (-65291356800000) ∧
      ceilMoment .century (-62135640000000) = .ok (-62135596800000) ∧
      IsGreatest {midnight | century.BeginsAt midnight ∧ midnight ≤ -62135640000000}
        (-65291356800000) ∧
      IsLeast {midnight | century.BeginsAt midnight ∧ -62135640000000 ≤ midnight}
        (-62135596800000) ∧
      Keeps .century (-65291356800000) ∧ Keeps .century (-62135596800000) := by
  have covered : century.Covers (CalendarDate.ofUnix (date (-62135640000000))).year := by
    simp only [Covers]
    decide
  have down : floorMoment .century (-62135640000000) = .ok (-65291356800000) := by decide
  have up : ceilMoment .century (-62135640000000) = .ok (-62135596800000) := by decide
  obtain ⟨first, next, floored, ceiled, nearest⟩ := floorMoment_ceilMoment_nearest century covered
  cases down.symm.trans floored
  cases up.symm.trans ceiled
  exact ⟨covered, down, up, nearest⟩

end Almanac.Period
