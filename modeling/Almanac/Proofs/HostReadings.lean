import Almanac.Proofs.InstantOverflow
import Almanac.Proofs.LocalClock

/-! Readings in the zone of the host. A reading of UTC is converted by its instant, to the second
that it lies in, and the offset of the result is looked up by the reading of the clock. Main
statement: outside the overlap at the end of summer the result has the instant that it was converted
from, and a timestamp comes back unchanged. -/

namespace Almanac.DateTime
open LocalRules

section
variable {rules : LocalRules} (regular : rules.Regular) {utc shown : Reading}

theorem second_of_shown
    (h : shown.micros = utc.micros + rules.offsetAtInstant utc.second * microsPerSecond) :
    shown.second = rules.shownAt utc.second := by
  rw [Reading.second, h, Int.add_mul_ediv_right _ _ (by decide)]
  rfl

include regular

theorem exists_inZone_host (low : 2 ≤ utc.date.year) (high : utc.date.year ≤ 9998) :
    ∃ shown : Reading,
      shown.micros = utc.micros + rules.offsetAtInstant utc.second * microsPerSecond ∧
      inZone utc (.host rules) = .ok ⟨shown, some (.host rules)⟩ := by
  have short := regular.offsetAtInstant_short utc.second
  have years : Reading.InYears
      (utc.micros + rules.offsetAtInstant utc.second * microsPerSecond) := by
    simp only [secondsPerDay] at short
    apply Reading.inYears_add low high
    all_goals
      simp only [microsPerDay, microsPerSecond]
      omega
  obtain ⟨shown, count, found⟩ := Reading.ofMicros?_of_inYears years
  refine ⟨shown, count, ?_⟩
  simp only [inZone, Reading.add?, found]

theorem offset?_host
    (h : shown.micros = utc.micros + rules.offsetAtInstant utc.second * microsPerSecond)
    (outside : ¬rules.InOverlap shown.second) :
    offset? ⟨shown, some (.host rules)⟩ = some (shown.micros - utc.micros) := by
  have second := second_of_shown h
  rw [second] at outside
  have ahead : rules.offsetAtReading shown.second = rules.offsetAtInstant utc.second := by
    rw [second, regular.offsetAtReading_shownAt outside]
  have distance : shown.micros - utc.micros =
      rules.offsetAtReading shown.second * microsPerSecond := by
    rw [ahead, h, add_sub_cancel_left]
  rw [distance]
  rfl

theorem instant_host
    (h : shown.micros = utc.micros + rules.offsetAtInstant utc.second * microsPerSecond)
    (outside : ¬rules.InOverlap shown.second) :
    instant ⟨shown, some (.host rules)⟩ = utc.micros := by
  rw [instant, offset?_host regular h outside, Option.getD_some, Int.sub_sub_self]

end

/-- A reading of UTC has one in the host's zone. Unless that lies in an overlap, any search for
instants finds the instant again, and the look-up of summer time by the reading agrees with it; the
offset is the distance from UTC, and the saving its distance from standard time. -/
theorem host_reading_restores_instant {code : Text} {rules : LocalRules}
    (known : ofCode? code = some rules) {instantOf : Int → Int}
    (inverse : rules.FindsInstants instantOf) {utc : Reading} (low : 2 ≤ utc.date.year)
    (high : utc.date.year ≤ 9998) :
    ∃ shown : Reading, inZone utc (.host rules) = .ok ⟨shown, some (.host rules)⟩ ∧
      (¬rules.InOverlap shown.second →
        instantOf shown.second = utc.second ∧
        rules.summerAtReading? shown.second =
          rules.summerAtInstant? (instantOf shown.second) ∧
        offset? ⟨shown, some (.host rules)⟩ = some (shown.micros - utc.micros) ∧
        rules.savingAt (some shown.second) = rules.offsetAt (some shown.second) - rules.offset ∧
        ∀ timestamp, timestamp * 1000 = utc.micros →
          ofUnixTimestamp timestamp (some (.host rules)) = .ok ⟨shown, some (.host rules)⟩ ∧
            toUnixTimestamp ⟨shown, some (.host rules)⟩ = .ok timestamp) := by
  have regular := regular_of_ofCode? known
  obtain ⟨shown, count, found⟩ := exists_inZone_host regular low high
  refine ⟨shown, found, fun outside => ?_⟩
  have offset := offset?_host regular count outside
  have back := instant_host regular count outside
  rw [second_of_shown count] at outside ⊢
  have once : instantOf (rules.shownAt utc.second) = utc.second :=
    inverse _ fun other => regular.eq_of_shownAt_eq outside
  refine ⟨once, ?_, offset, savingAt_eq rules _, fun timestamp millis => ?_⟩
  · rw [once, regular.summerAtReading?_shownAt outside]
  · constructor
    · simp only [ofUnixTimestamp, millis, utc.ofMicros?_micros, found]
    · simp only [toUnixTimestamp, back, utc.ofMicros?_micros]
      rw [← millis, Int.mul_ediv_cancel _ (by decide)]

theorem host_reading_restores_instant_new_year :
    let utc : Reading := ⟨-31573799999000, by decide, by decide⟩
    let shown : Reading := ⟨-31534199999000, by decide, by decide⟩
    ofCode? "SYD".toList = some sydney ∧
      sydney.FindsInstants (fun reading => reading - sydney.offsetAtReading reading) ∧
      (2 ≤ utc.date.year ∧ utc.date.year ≤ 9998) ∧
      inZone utc (.host sydney) = .ok ⟨shown, some (.host sydney)⟩ ∧
      ¬sydney.InOverlap shown.second ∧
      offset? ⟨shown, some (.host sydney)⟩ = some (39600 * microsPerSecond) ∧
      sydney.savingAt (some shown.second) = 3600 ∧
      toUnixTimestamp ⟨shown, some (.host sydney)⟩ = .ok (-31573799999) := by
  intro utc shown
  have inverse := regular_sydney.findsInstants_sub_offsetAtReading
  obtain ⟨other, found, restored⟩ :=
    @host_reading_restores_instant "SYD".toList sydney rfl _ inverse utc (by decide) (by decide)
  have converted : inZone utc (.host sydney) = .ok ⟨shown, some (.host sydney)⟩ := by
    decide +kernel
  cases found.symm.trans converted
  have outside : ¬sydney.InOverlap shown.second := by decide +kernel
  obtain ⟨-, -, offset, saving, taken⟩ := restored outside
  exact ⟨rfl, inverse, by decide, converted, outside, offset, saving, (taken (-31573799999) rfl).2⟩

end Almanac.DateTime
