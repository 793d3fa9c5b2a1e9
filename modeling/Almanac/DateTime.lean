import Almanac.Literal
import Almanac.Ordinal
import Almanac.Zone

/-!
Readings of a calendar clock in the years 1..9999, to the microsecond, with or without a zone. Their
days are counted by ordinals. A reading without an offset is taken for one of UTC when it becomes a
timestamp. Main statements: the fields of a reading are those of a valid date and time of day, and
both ends of the readable span are the first and the last microsecond of those years.
-/

namespace Almanac

structure ClockTime where
  hour : Int
  minute : Int
  second : Int
  micro : Int
deriving DecidableEq, Repr

namespace ClockTime

def Valid (time : ClockTime) : Prop :=
  (0 ≤ time.hour ∧ time.hour < 24) ∧ (0 ≤ time.minute ∧ time.minute < 60) ∧
    (0 ≤ time.second ∧ time.second < 60) ∧ 0 ≤ time.micro ∧ time.micro < microsPerSecond

instance (time : ClockTime) : Decidable time.Valid :=
  inferInstanceAs (Decidable (_ ∧ _))

def toMicros (time : ClockTime) : Int :=
  ((time.hour * 60 + time.minute) * 60 + time.second) * microsPerSecond + time.micro

def ofMicros (micros : Int) : ClockTime where
  hour := micros / microsPerSecond / 3600
  minute := micros / microsPerSecond / 60 % 60
  second := micros / microsPerSecond % 60
  micro := micros % microsPerSecond

theorem toMicros_ofMicros (micros : Int) : (ofMicros micros).toMicros = micros := by
  simp only [ofMicros, toMicros, microsPerSecond]
  omega

theorem ofMicros_toMicros {time : ClockTime} (h : time.Valid) : ofMicros time.toMicros = time := by
  obtain ⟨hour, minute, second, micro⟩ := time
  simp only [Valid, ofMicros, toMicros, microsPerSecond, mk.injEq] at *
  omega

def text (time : ClockTime) : Text :=
  Numeral.zeroPadded 2 time.hour ++ ':' :: Numeral.zeroPadded 2 time.minute ++
    ':' :: Numeral.zeroPadded 2 time.second ++
    if time.micro = 0 then [] else '.' :: Numeral.zeroPadded 6 time.micro

/-- Milliseconds since midnight; smaller parts of a second are dropped. -/
def toUnixTime (time : ClockTime) : Int :=
  Timestamp.clockMillis time.hour time.minute time.second + time.micro / 1000

/-- The clock fields of a time of day; none for a number of milliseconds outside a day. -/
def ofUnixTime? (time : Int) : Option ClockTime :=
  if Timestamp.InDay time then
    let parts := Literal.ClockParts.ofTime time
    some ⟨parts.hour, parts.minute, parts.second, parts.millis * 1000⟩
  else none

end ClockTime

/-- A clock reading, counted in microseconds since the clock showed 1970-01-01 00:00. -/
structure Reading where
  micros : Int
  first_le : -62135596800000000 ≤ micros
  le_last : micros ≤ 253402300799999999
deriving DecidableEq, Repr

namespace Reading

def ofMicros? (micros : Int) : Option Reading :=
  if h : -62135596800000000 ≤ micros ∧ micros ≤ 253402300799999999 then some ⟨micros, h.1, h.2⟩
  else none

theorem ofMicros?_eq_none_iff {micros : Int} :
    ofMicros? micros = none ↔ micros < -62135596800000000 ∨ 253402300799999999 < micros := by
  unfold ofMicros?
  split
  · simp
    omega
  · simp
    omega

theorem micros_of_ofMicros? {micros : Int} {reading : Reading}
    (h : ofMicros? micros = some reading) : reading.micros = micros := by
  unfold ofMicros? at h
  split at h
  · cases h
    rfl
  · cases h

theorem span_ordinals :
    (Ordinal.ofDate ⟨1, 1, 1⟩ - Ordinal.epoch) * microsPerDay = -62135596800000000 ∧
      (Ordinal.ofDate ⟨10000, 1, 1⟩ - Ordinal.epoch) * microsPerDay - 1 = 253402300799999999 := by
  decide

def date (reading : Reading) : CalendarDate :=
  Ordinal.toDate (reading.micros / microsPerDay + Ordinal.epoch)

def time (reading : Reading) : ClockTime :=
  .ofMicros (reading.micros % microsPerDay)

theorem valid_date (reading : Reading) : reading.date.Valid := Ordinal.valid_toDate _

theorem valid_time (reading : Reading) : reading.time.Valid := by
  simp only [time, ClockTime.Valid, ClockTime.ofMicros, microsPerSecond, microsPerDay]
  omega

def second (reading : Reading) : Int := reading.micros / microsPerSecond

def ofFields? (date : CalendarDate) (time : ClockTime) : Option Reading :=
  if date.Valid ∧ 1 ≤ date.year ∧ date.year ≤ 9999 ∧ time.Valid then
    ofMicros? ((Ordinal.ofDate date - Ordinal.epoch) * microsPerDay + time.toMicros)
  else none

def add? (reading : Reading) (micros : Int) : Option Reading :=
  ofMicros? (reading.micros + micros)

def text (reading : Reading) : Text :=
  Literal.writeCalendarDate reading.date ++ 'T' :: reading.time.text

end Reading

structure DateTime where
  reading : Reading
  zone? : Option Zone
deriving DecidableEq, Repr

inductive DateTimeError where
  /-- A reading outside the years 1..9999. -/
  | outOfRange
  /-- A zone that names no offset. -/
  | noOffset
deriving DecidableEq, Repr

namespace DateTime

/-- The distance from UTC; none without a zone or in a zone that names none. -/
def offset? (dateTime : DateTime) : Option Int :=
  dateTime.zone?.bind (·.offset? dateTime.reading.micros)

theorem offset?_of_fixed {dateTime : DateTime} {offset : Int}
    (h : dateTime.zone? = some (.fixed offset)) : dateTime.offset? = some offset := by
  rw [offset?, h]
  rfl

/-- The instant in microseconds since the epoch, a reading without an offset being one of UTC. -/
def instant (dateTime : DateTime) : Int :=
  dateTime.reading.micros - dateTime.offset?.getD 0

def ofUtc (utc : Reading) : DateTime := ⟨utc, some .utc⟩

/-- The offset of the host's clock at a reading. The clock is asked what it shows when UTC shows the
reading, and a day before the reading; neither may leave the years 1..9999. -/
def hostOffset? (rules : LocalRules) (reading : Reading) : Option Int := do
  let _ ← reading.add? (rules.offsetAtInstant reading.second * microsPerSecond)
  let _ ← reading.add? (-microsPerDay)
  return rules.offsetAtReading reading.second * microsPerSecond

/-- The reading of a clock of UTC at the same instant. A reading that names no offset is one of the
host's clock if its zone knows the host, else of UTC. -/
def toUtc? (dateTime : DateTime) : Option Reading :=
  match dateTime.zone? with
  | some (.unspecified host) =>
    (hostOffset? host dateTime.reading).bind fun offset => dateTime.reading.add? (-offset)
  | _ => Reading.ofMicros? dateTime.instant

def inZone (utc : Reading) (zone : Zone) : Except DateTimeError DateTime :=
  let shifted (offset : Int) : Except DateTimeError DateTime :=
    match utc.add? offset with
    | some reading => .ok ⟨reading, some zone⟩
    | none => .error .outOfRange
  match zone with
  | .fixed offset => shifted offset
  | .host rules => shifted (rules.offsetAtInstant utc.second * microsPerSecond)
  | .unspecified _ => .error .noOffset

def toUnixTimestamp (dateTime : DateTime) : Except DateTimeError Int :=
  match Reading.ofMicros? dateTime.instant with
  | some utc => .ok (utc.micros / 1000)
  | none => .error .outOfRange

/-- The reading at a timestamp: of UTC and without a zone if none is asked for. -/
def ofUnixTimestamp (timestamp : Int) (zone? : Option Zone) : Except DateTimeError DateTime :=
  match Reading.ofMicros? (timestamp * 1000) with
  | none => .error .outOfRange
  | some utc =>
    match zone? with
    | none => .ok ⟨utc, none⟩
    | some zone => inZone utc zone

def text (dateTime : DateTime) : Text :=
  dateTime.reading.text ++ (dateTime.offset?.map Zone.offsetText).getD []

def epoch : DateTime := ofUtc ⟨0, by decide, by decide⟩

end DateTime

inductive DateError where
  /-- Its ordinal is no 32-bit integer. -/
  | tooLong
  | outsideYears
deriving DecidableEq, Repr

namespace CalendarDate

def toUnixByOrdinal (date : CalendarDate) : Int := Ordinal.ofDate date - Ordinal.epoch

def ofUnixByOrdinal (unixDate : Int) : Except DateError CalendarDate :=
  let ordinal := unixDate + Ordinal.epoch
  if ordinal < -2147483648 ∨ 2147483647 < ordinal then .error .tooLong
  else if 1 ≤ ordinal ∧ ordinal ≤ 3652059 then .ok (Ordinal.toDate ordinal)
  else .error .outsideYears

end CalendarDate

end Almanac
