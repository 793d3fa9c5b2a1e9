import Almanac.Proofs.OrdinalDays

/-! Instants of date-times and their timestamps. A timestamp is the millisecond that an instant
lies in, rounded down before the epoch too; a fixed offset moves the reading and leaves the instant
where it is. Main statement: the reading that a timestamp is converted to has that timestamp, and
every instant lies in the millisecond of its timestamp, so that no later instant has a smaller
one. -/

namespace Almanac.DateTime

/-- The instant in UTC by the calendar: microseconds from 1970-01-01 00:00 to the date and time that
are shown, less the offset. A reading without an offset is one of UTC. -/
def utcMicros (dateTime : DateTime) : Int :=
  dateTime.reading.date.toUnix * microsPerDay + dateTime.reading.time.toMicros -
    dateTime.offset?.getD 0

theorem instant_eq_utcMicros (dateTime : DateTime) : dateTime.instant = dateTime.utcMicros := by
  rw [instant, utcMicros, ← Reading.micros_eq_fields]

theorem toUnixTimestamp_of_inYears {dateTime : DateTime}
    (h : Reading.InYears dateTime.utcMicros) :
    dateTime.toUnixTimestamp = .ok (dateTime.utcMicros / 1000) := by
  obtain ⟨utc, count, found⟩ := Reading.ofMicros?_of_inYears h
  rw [toUnixTimestamp, instant_eq_utcMicros, found, ← count]

theorem toUnixTimestamp_of_not_inYears {dateTime : DateTime}
    (h : ¬Reading.InYears dateTime.utcMicros) :
    dateTime.toUnixTimestamp = .error .outOfRange := by
  rw [toUnixTimestamp, instant_eq_utcMicros, Reading.ofMicros?_of_not_inYears h]

theorem toUnixTimestamp_eq_ok_iff {dateTime : DateTime} {timestamp : Int} :
    dateTime.toUnixTimestamp = .ok timestamp ↔
      Reading.InYears dateTime.utcMicros ∧ dateTime.utcMicros / 1000 = timestamp := by
  by_cases years : Reading.InYears dateTime.utcMicros
  · rw [toUnixTimestamp_of_inYears years, Except.ok.injEq, and_iff_right years]
  · rw [toUnixTimestamp_of_not_inYears years]
    simp only [reduceCtorEq, years, false_and]

theorem ofUnixTimestamp_of_not_inYears {timestamp : Int} (zone? : Option Zone)
    (h : ¬Reading.InYears (timestamp * 1000)) :
    ofUnixTimestamp timestamp zone? = .error .outOfRange := by
  rw [ofUnixTimestamp, Reading.ofMicros?_of_not_inYears h]

theorem ofUnixTimestamp_naive {timestamp : Int} (h : Reading.InYears (timestamp * 1000)) :
    ∃ utc : Reading, utc.micros = timestamp * 1000 ∧
      ofUnixTimestamp timestamp none = .ok ⟨utc, none⟩ := by
  obtain ⟨utc, count, found⟩ := Reading.ofMicros?_of_inYears h
  refine ⟨utc, count, ?_⟩
  rw [ofUnixTimestamp, found]

section
variable {timestamp offset : Int}

theorem ofUnixTimestamp_fixed (h : Reading.InYears (timestamp * 1000))
    (h' : Reading.InYears (timestamp * 1000 + offset)) :
    ∃ shown : Reading, shown.micros = timestamp * 1000 + offset ∧
      ofUnixTimestamp timestamp (some (.fixed offset)) = .ok ⟨shown, some (.fixed offset)⟩ := by
  obtain ⟨utc, count, found⟩ := Reading.ofMicros?_of_inYears h
  obtain ⟨shown, count', found'⟩ := Reading.ofMicros?_of_inYears h'
  refine ⟨shown, count', ?_⟩
  rw [← count] at found'
  simp only [ofUnixTimestamp, found, inZone, Reading.add?, found']

theorem ofUnixTimestamp_fixed_of_not_inYears (h : ¬Reading.InYears (timestamp * 1000 + offset)) :
    ofUnixTimestamp timestamp (some (.fixed offset)) = .error .outOfRange := by
  by_cases years : Reading.InYears (timestamp * 1000)
  · obtain ⟨utc, count, found⟩ := Reading.ofMicros?_of_inYears years
    rw [← count] at h
    simp only [ofUnixTimestamp, found, inZone, Reading.add?, Reading.ofMicros?_of_not_inYears h]
  · exact ofUnixTimestamp_of_not_inYears _ years

end

theorem ofUnixTimestamp_cases (timestamp : Int) (offset? : Option Int) :
    (Reading.InYears (timestamp * 1000) ∧ Reading.InYears (timestamp * 1000 + offset?.getD 0) ∧
      ∃ shown : Reading, shown.micros = timestamp * 1000 + offset?.getD 0 ∧
        ofUnixTimestamp timestamp (offset?.map .fixed) = .ok ⟨shown, offset?.map .fixed⟩) ∨
    (¬(Reading.InYears (timestamp * 1000) ∧
        Reading.InYears (timestamp * 1000 + offset?.getD 0)) ∧
      ofUnixTimestamp timestamp (offset?.map .fixed) = .error .outOfRange) := by
  by_cases years : Reading.InYears (timestamp * 1000)
  · cases offset? with
    | none =>
      rw [Option.getD_none, Int.add_zero]
      exact .inl ⟨years, years, ofUnixTimestamp_naive years⟩
    | some offset =>
      by_cases shownYears : Reading.InYears (timestamp * 1000 + offset)
      · exact .inl ⟨years, shownYears, ofUnixTimestamp_fixed years shownYears⟩
      · exact .inr ⟨fun both => shownYears both.2,
          ofUnixTimestamp_fixed_of_not_inYears shownYears⟩
  · exact .inr ⟨fun both => years both.1, ofUnixTimestamp_of_not_inYears _ years⟩

theorem utcMicros_of_ofUnixTimestamp {timestamp : Int} {offset? : Option Int} {dateTime : DateTime}
    (h : ofUnixTimestamp timestamp (offset?.map .fixed) = .ok dateTime) :
    Reading.InYears (timestamp * 1000) ∧ dateTime.utcMicros = timestamp * 1000 := by
  rcases ofUnixTimestamp_cases timestamp offset? with ⟨years, -, shown, count, found⟩ | ⟨-, refused⟩
  · cases h.symm.trans found
    refine ⟨years, ?_⟩
    have named : DateTime.offset? ⟨shown, offset?.map .fixed⟩ = offset? := by
      cases offset? <;> rfl
    rw [← instant_eq_utcMicros, instant, named, count]
    exact Int.add_sub_cancel ..
  · cases h.symm.trans refused

/-- A timestamp is converted to a reading without a zone or at a fixed offset if and only if the
clocks of UTC and of that offset both show the years 1..9999, and the reading has the timestamp
again. The instant of any date-time that has a timestamp lies in that millisecond, so that
timestamps keep the order of instants. -/
theorem timestamp_of_instant :
    (∀ (timestamp : Int) (offset? : Option Int),
      (Reading.InYears (timestamp * 1000) ∧ Reading.InYears (timestamp * 1000 + offset?.getD 0) ↔
        ∃ dateTime, ofUnixTimestamp timestamp (offset?.map .fixed) = .ok dateTime) ∧
      ∀ dateTime, ofUnixTimestamp timestamp (offset?.map .fixed) = .ok dateTime →
        dateTime.toUnixTimestamp = .ok timestamp) ∧
    (∀ (dateTime : DateTime) (timestamp : Int), dateTime.toUnixTimestamp = .ok timestamp →
      timestamp * 1000 ≤ dateTime.utcMicros ∧ dateTime.utcMicros < (timestamp + 1) * 1000) ∧
    ∀ (first second : DateTime) (timestamp timestamp' : Int),
      first.toUnixTimestamp = .ok timestamp → second.toUnixTimestamp = .ok timestamp' →
      first.utcMicros ≤ second.utcMicros → timestamp ≤ timestamp' := by
  refine ⟨fun timestamp offset? => ⟨?_, fun dateTime converted => ?_⟩,
    fun dateTime timestamp taken => ?_, fun first second timestamp timestamp' taken taken' le => ?_⟩
  · rcases ofUnixTimestamp_cases timestamp offset? with
      ⟨years, shownYears, shown, -, found⟩ | ⟨outside, refused⟩
    · exact iff_of_true ⟨years, shownYears⟩ ⟨_, found⟩
    · refine iff_of_false outside fun ⟨dateTime, found⟩ => ?_
      cases found.symm.trans refused
  · obtain ⟨years, count⟩ := utcMicros_of_ofUnixTimestamp converted
    rw [toUnixTimestamp_eq_ok_iff, count]
    exact ⟨years, by omega⟩
  · obtain ⟨-, rounded⟩ := toUnixTimestamp_eq_ok_iff.1 taken
    omega
  · obtain ⟨-, rounded⟩ := toUnixTimestamp_eq_ok_iff.1 taken
    obtain ⟨-, rounded'⟩ := toUnixTimestamp_eq_ok_iff.1 taken'
    omega

theorem timestamp_of_instant_before_epoch :
    let ahead : DateTime := ⟨⟨500, by decide, by decide⟩, some (.fixed 1500)⟩
    let naive : DateTime := ⟨⟨-1, by decide, by decide⟩, none⟩
    ofUnixTimestamp (-1) (some (.fixed 1500)) = .ok ahead ∧ ahead.toUnixTimestamp = .ok (-1) ∧
      naive.toUnixTimestamp = .ok (-1) ∧ (-1) * 1000 ≤ naive.utcMicros ∧
      ahead.utcMicros < naive.utcMicros ∧ (-1 : Int) ≤ -1 := by
  intro ahead naive
  have converted : ofUnixTimestamp (-1) (some (.fixed 1500)) = .ok ahead := rfl
  have back := (timestamp_of_instant.1 (-1) (some 1500)).2 ahead converted
  have taken : naive.toUnixTimestamp = .ok (-1) := rfl
  have later : ahead.utcMicros < naive.utcMicros := by decide
  exact ⟨converted, back, taken, (timestamp_of_instant.2.1 naive (-1) taken).1, later,
    timestamp_of_instant.2.2 ahead naive (-1) (-1) back taken later.le⟩

end Almanac.DateTime
