import Almanac.IsoWeek
import Almanac.Text
import Almanac.Timestamp

/-!
Rules of local clocks: a standard offset from UTC, and where the clock is put forward for the
summer, the Sundays of the two changes. Instants and clock readings are seconds since 1970-01-01
00:00, in UTC and on the clock. The same changes decide by an instant and by a clock reading; the
two ways differ only about readings that a change skips or repeats.
-/

namespace Almanac

/-- A change of the clock in every year: the Sunday of the month, counted from 1, and the second of
the day that the clock shows when it is changed. -/
structure ClockChange where
  month : Int
  sunday : Int
  second : Int
deriving DecidableEq, Repr

namespace ClockChange

def date (change : ClockChange) (year : Int) : Int :=
  let first := CalendarDate.toUnix ⟨year, change.month, 1⟩
  let firstSunday := first + (7 - IsoWeek.daysSinceSunday (first + epochJulian)) % 7
  firstSunday + 7 * (change.sunday - 1)

def reading (change : ClockChange) (year : Int) : Int :=
  change.date year * secondsPerDay + change.second

end ClockChange

structure SummerTime where
  name : Text
  offset : Int
  starts : ClockChange
  stops : ClockChange
deriving DecidableEq, Repr

structure LocalRules where
  name : Text
  offset : Int
  summer? : Option SummerTime
deriving DecidableEq, Repr

namespace LocalRules

def utc : LocalRules := ⟨"UTC".toList, 0, none⟩

/-- Summer from the second Sunday of March to the first Sunday of November. -/
def newYork : LocalRules where
  name := "EST".toList
  offset := -18000
  summer? := some ⟨"EDT".toList, -14400, ⟨3, 2, 7200⟩, ⟨11, 1, 7200⟩⟩

/-- Summer from the first Sunday of October over New Year to the first Sunday of April. -/
def sydney : LocalRules where
  name := "AEST".toList
  offset := 36000
  summer? := some ⟨"AEDT".toList, 39600, ⟨10, 1, 7200⟩, ⟨4, 1, 10800⟩⟩

def india : LocalRules := ⟨"IST".toList, 19800, none⟩

def newfoundland : LocalRules := ⟨"NST".toList, -12600, none⟩

def ofCode? (code : Text) : Option LocalRules :=
  [("UTC".toList, utc), ("NY".toList, newYork), ("SYD".toList, sydney), ("IST".toList, india),
    ("NST".toList, newfoundland)].lookup code

def yearOfReading (reading : Int) : Int :=
  (CalendarDate.ofUnix (reading / secondsPerDay)).year

/-- Whether a reading lies in a season of the year, or in one that spans New Year. -/
def InSeason (start stop reading : Int) : Prop :=
  if start < stop then start ≤ reading ∧ reading < stop else reading < stop ∨ start ≤ reading

instance (start stop reading : Int) : Decidable (InSeason start stop reading) := by
  unfold InSeason
  infer_instance

def summerAtReading? (rules : LocalRules) (reading : Int) : Option SummerTime :=
  rules.summer?.filter fun summer =>
    let year := yearOfReading reading
    InSeason (summer.starts.reading year) (summer.stops.reading year) reading

/-- The summer time in force at an instant. Both changes are taken on the standard clock. -/
def summerAtInstant? (rules : LocalRules) (instant : Int) : Option SummerTime :=
  rules.summer?.filter fun summer =>
    let reading := instant + rules.offset
    let year := yearOfReading reading
    let forward := summer.offset - rules.offset
    InSeason (summer.starts.reading year) (summer.stops.reading year - forward) reading

def offsetOf (rules : LocalRules) (summer? : Option SummerTime) : Int :=
  (summer?.map (·.offset)).getD rules.offset

def offsetAtReading (rules : LocalRules) (reading : Int) : Int :=
  rules.offsetOf (rules.summerAtReading? reading)

def offsetAtInstant (rules : LocalRules) (instant : Int) : Int :=
  rules.offsetOf (rules.summerAtInstant? instant)

def offsetAt (rules : LocalRules) (reading? : Option Int) : Int :=
  (reading?.map rules.offsetAtReading).getD rules.offset

/-- Seconds that the clock is ahead of its standard time; none unless there is a reading and summer
time is in force at it. -/
def savingAt (rules : LocalRules) (reading? : Option Int) : Int :=
  match reading?.bind rules.summerAtReading? with
  | some _ => rules.offsetAt reading? - rules.offset
  | none => 0

def nameAt (rules : LocalRules) (reading? : Option Int) : Text :=
  ((reading?.bind rules.summerAtReading?).map (·.name)).getD rules.name

theorem offsetAtReading_of_noSummer {rules : LocalRules} (h : rules.summer? = none)
    (reading : Int) : rules.offsetAtReading reading = rules.offset := by
  simp [offsetAtReading, summerAtReading?, h, offsetOf]

theorem offsetAtInstant_of_noSummer {rules : LocalRules} (h : rules.summer? = none)
    (instant : Int) : rules.offsetAtInstant instant = rules.offset := by
  simp [offsetAtInstant, summerAtInstant?, h, offsetOf]

end LocalRules

end Almanac
