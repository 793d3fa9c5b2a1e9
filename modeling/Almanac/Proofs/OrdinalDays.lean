import Almanac.DateTime
import Almanac.Proofs.MonthOfDay
import Almanac.Proofs.NewYear

/-! Ordinals as unix dates. Ordinals add up the lengths of years and months, day numbers come from
a closed form that begins its years in March; here both count the same days. Main statements: the
ordinal of a valid date is its unix date, moved by the ordinal of 1970-01-01, and the readable
span of clocks is the years 1..9999 of the calendar. -/

namespace Almanac.Ordinal
open MonthIndex

theorem daysBeforeYear_eq (year : Int) :
    daysBeforeYear year = firstDay (12 * year) + epoch - 1 := by
  have newYear := IsoWeek.newYear_eq_firstDay year
  rw [IsoWeek.newYear_eq] at newYear
  simp only [MarchYear.daysBefore, marchEpochJulian, epochJulian] at newYear
  simp only [daysBeforeYear, epoch]
  omega

theorem daysInMonths_eq (year : Int) {months : Nat} (h : months ≤ 12) :
    daysInMonths year months = firstDay (12 * year + months) - firstDay (12 * year) := by
  induction months with
  | zero => simp [daysInMonths]
  | succ months ih =>
    have inYear : (12 * year + months) / 12 = year := by omega
    have inMonth : (12 * year + months) % 12 = months := by omega
    have length : length (12 * year + months) = daysInMonth year (months + 1) := by
      rw [MonthIndex.length, MonthIndex.year, month, inYear, inMonth]
    have turn := firstDay_succ (12 * year + months)
    have before := ih (by omega)
    rw [daysInMonths, before, Int.natCast_add, Int.natCast_one, ← Int.add_assoc, turn, length]
    omega

theorem ofDate_eq {date : CalendarDate} (h : date.Valid) : ofDate date = date.toUnix + epoch := by
  obtain ⟨low, high, -, -⟩ := h
  have months : ((date.month - 1).toNat : Int) = date.month - 1 := Int.toNat_of_nonneg (by omega)
  have index : 12 * date.year + (date.month - 1) = MonthIndex.ofDate date := by
    unfold MonthIndex.ofDate
    omega
  rw [ofDate, daysBeforeYear_eq, daysInMonths_eq date.year (by omega), months, index,
    toUnix_eq date]
  omega

theorem toDate_eq (ordinal : Int) : toDate ordinal = CalendarDate.ofUnix (ordinal - epoch) := by
  have valid := valid_toDate ordinal
  have count := ofDate_eq valid
  rw [ofDate_toDate] at count
  rw [← CalendarDate.ofUnix_toUnix valid]
  congr 1
  omega

end Almanac.Ordinal

namespace Almanac.ClockTime

theorem toMicros_bounds {time : ClockTime} (h : time.Valid) :
    0 ≤ time.toMicros ∧ time.toMicros < microsPerDay := by
  simp only [Valid, toMicros, microsPerSecond, microsPerDay] at *
  omega

end Almanac.ClockTime

namespace Almanac.Reading

/-- Counts of microseconds from 0001-01-01 00:00 on and before 10000-01-01 00:00. -/
def InYears (micros : Int) : Prop :=
  CalendarDate.toUnix ⟨1, 1, 1⟩ * microsPerDay ≤ micros ∧
    micros < CalendarDate.toUnix ⟨10000, 1, 1⟩ * microsPerDay

instance (micros : Int) : Decidable (InYears micros) :=
  inferInstanceAs (Decidable (_ ∧ _))

theorem inYears_iff {micros : Int} :
    InYears micros ↔ -62135596800000000 ≤ micros ∧ micros ≤ 253402300799999999 := by
  have first : CalendarDate.toUnix ⟨1, 1, 1⟩ = -719162 := by decide
  have last : CalendarDate.toUnix ⟨10000, 1, 1⟩ = 2932897 := by decide
  rw [InYears, first, last]
  simp only [microsPerDay]
  omega

theorem inYears_micros (reading : Reading) : InYears reading.micros :=
  inYears_iff.2 ⟨reading.first_le, reading.le_last⟩

theorem ofMicros?_micros (reading : Reading) : ofMicros? reading.micros = some reading :=
  dif_pos ⟨reading.first_le, reading.le_last⟩

theorem ofMicros?_of_inYears {micros : Int} (h : InYears micros) :
    ∃ reading : Reading, reading.micros = micros ∧ ofMicros? micros = some reading := by
  rw [inYears_iff] at h
  exact ⟨⟨micros, h.1, h.2⟩, rfl, dif_pos h⟩

theorem ofMicros?_of_not_inYears {micros : Int} (h : ¬InYears micros) :
    ofMicros? micros = none := by
  rw [inYears_iff] at h
  exact dif_neg h

theorem inYears_day_iff {unixDate time : Int} (low : 0 ≤ time) (high : time < microsPerDay) :
    InYears (unixDate * microsPerDay + time) ↔
      1 ≤ (CalendarDate.ofUnix unixDate).year ∧ (CalendarDate.ofUnix unixDate).year ≤ 9999 := by
  have first : MonthIndex.firstDay (12 * 1) = -719162 := by decide
  have last : MonthIndex.firstDay (12 * 10000) = 2932897 := by decide
  have lower : 1 ≤ (CalendarDate.ofUnix unixDate).year ↔ _ := MonthIndex.le_year_iff
  have upper : 10000 ≤ (CalendarDate.ofUnix unixDate).year ↔ _ := MonthIndex.le_year_iff
  rw [first] at lower
  rw [last] at upper
  rw [inYears_iff, lower]
  simp only [microsPerDay] at *
  omega

theorem ofFields?_of_valid {date : CalendarDate} {time : ClockTime} (day : date.Valid)
    (year : 1 ≤ date.year ∧ date.year ≤ 9999) (clock : time.Valid) :
    ∃ reading : Reading, reading.micros = date.toUnix * microsPerDay + time.toMicros ∧
      ofFields? date time = some reading := by
  obtain ⟨low, high⟩ := ClockTime.toMicros_bounds clock
  have inside : InYears (date.toUnix * microsPerDay + time.toMicros) := by
    rw [inYears_day_iff low high, CalendarDate.ofUnix_toUnix day]
    exact year
  have count : Ordinal.ofDate date - Ordinal.epoch = date.toUnix := by
    rw [Ordinal.ofDate_eq day, Int.add_sub_cancel]
  rw [ofFields?, if_pos ⟨day, year.1, year.2, clock⟩, count]
  exact ofMicros?_of_inYears inside

theorem micros_eq_fields (reading : Reading) :
    reading.micros = reading.date.toUnix * microsPerDay + reading.time.toMicros := by
  have count := Ordinal.ofDate_eq reading.valid_date
  rw [date, Ordinal.ofDate_toDate] at count
  rw [time, ClockTime.toMicros_ofMicros, date]
  simp only [microsPerDay] at *
  omega

theorem year_bounds (reading : Reading) : 1 ≤ reading.date.year ∧ reading.date.year ≤ 9999 := by
  have inside := reading.inYears_micros
  obtain ⟨low, high⟩ := ClockTime.toMicros_bounds reading.valid_time
  rw [reading.micros_eq_fields, inYears_day_iff low high,
    CalendarDate.ofUnix_toUnix reading.valid_date] at inside
  exact inside

end Almanac.Reading
