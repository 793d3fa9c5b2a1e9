import Almanac.Calendar
import Almanac.Numeral
import Almanac.Quoted
import Almanac.Timestamp

/-!
Dates, times and timestamps as literal text: `YYYY-MM-DD`, `HH:MM:SS` with an optional fraction,
and both with a space between. The writer cuts a fraction off at the precision asked for; the reader
rounds it to milliseconds. The reader takes missing last components for their least values and any
integer for a component; what is no integer is refused by name. Main statements: the sum of the
parts that a time is written by is the time, a text is answered unless its year, hour or fraction is
too long, and the reader's error is its first bad component.
-/

namespace Almanac.Literal

/-- The first digits of a second's milliseconds; digits past the third are zeros. There are taken to
be fewer of them than `Numeral.maxLength`, which the writers that answer texts check. -/
def fractionText (millis : Int) (digits : Nat) : Text :=
  ((Numeral.zeroPadded 3 millis).take digits).rightpad digits '0'

def writeCalendarDate (date : CalendarDate) : Text :=
  Numeral.zeroPadded 4 date.year ++ '-' :: Numeral.zeroPadded 2 date.month ++
    '-' :: Numeral.zeroPadded 2 date.day

def writeJulian (julian : Int) : Text :=
  writeCalendarDate (.ofJulian julian)

def writeDate (unixDate : Int) : Text :=
  writeCalendarDate (.ofUnix unixDate)

/-- A time of day written by its hours, minutes, seconds and milliseconds. Any number of
milliseconds has these parts; only the hours may leave their clock. -/
structure ClockParts where
  hour : Int
  minute : Int
  second : Int
  millis : Int
deriving DecidableEq, Repr

def ClockParts.ofTime (time : Int) : ClockParts where
  hour := time / millisPerHour
  minute := time % millisPerHour / millisPerMinute
  second := time % millisPerHour % millisPerMinute / millisPerSecond
  millis := time % millisPerHour % millisPerMinute % millisPerSecond

theorem ClockParts.sum_ofTime (time : Int) :
    Timestamp.clockMillis (ofTime time).hour (ofTime time).minute (ofTime time).second +
      (ofTime time).millis = time := by
  simp only [ofTime, Timestamp.clockMillis, millisPerHour, millisPerMinute, millisPerSecond]
  omega

/-- A precision that is not positive writes no fraction. -/
def writeTime (time precision : Int) : Text :=
  let parts := ClockParts.ofTime time
  Numeral.zeroPadded 2 parts.hour ++ ':' :: Numeral.zeroPadded 2 parts.minute ++
    ':' :: Numeral.zeroPadded 2 parts.second ++
    if 0 < precision then '.' :: fractionText parts.millis precision.toNat else []

def writeTimestamp (timestamp precision : Int) : Text :=
  writeDate (Timestamp.date timestamp) ++ ' ' :: writeTime (Timestamp.time timestamp) precision

/-- Years and hours are the numbers in a text that have no bound. -/
def julianText (julian : Int) : Except Numeral.WriteFault Text :=
  Numeral.limited (CalendarDate.ofJulian julian).year 0 (writeJulian julian)

def dateText (unixDate : Int) : Except Numeral.WriteFault Text :=
  julianText (unixDate + epochJulian)

def timeText (time precision : Int) : Except Numeral.WriteFault Text :=
  Numeral.limited (ClockParts.ofTime time).hour precision (writeTime time precision)

def timestampText (timestamp precision : Int) : Except Numeral.WriteFault Text := do
  let date ← dateText (Timestamp.date timestamp)
  let time ← timeText (Timestamp.time timestamp) precision
  return date ++ ' ' :: time

theorem dateText_eq_ok_iff {unixDate : Int} {text : Text} :
    dateText unixDate = .ok text ↔
      Numeral.digitCount (CalendarDate.ofUnix unixDate).year ≤ Numeral.maxDigits ∧
        writeDate unixDate = text := by
  rw [dateText, julianText, Numeral.limited_eq_ok_iff]
  constructor
  · rintro ⟨short, -, same⟩
    exact ⟨short, same⟩
  · rintro ⟨short, same⟩
    exact ⟨short, by decide, same⟩

theorem timeText_eq_ok_iff {time precision : Int} {text : Text} :
    timeText time precision = .ok text ↔
      Numeral.digitCount (ClockParts.ofTime time).hour ≤ Numeral.maxDigits ∧
        precision < Numeral.maxLength ∧ writeTime time precision = text :=
  Numeral.limited_eq_ok_iff

theorem timestampText_eq_ok_iff {timestamp precision : Int} {text : Text} :
    timestampText timestamp precision = .ok text ↔
      (∃ date, dateText (Timestamp.date timestamp) = .ok date) ∧
      (∃ time, timeText (Timestamp.time timestamp) precision = .ok time) ∧
        writeTimestamp timestamp precision = text := by
  unfold timestampText
  cases date : dateText (Timestamp.date timestamp) with
  | error fault => simp [bind, Except.bind]
  | ok dateText =>
    cases time : timeText (Timestamp.time timestamp) precision with
    | error fault => simp [bind, Except.bind]
    | ok timeText =>
      rw [writeTimestamp, (dateText_eq_ok_iff.1 date).2, (timeText_eq_ok_iff.1 time).2.2]
      simp [bind, Except.bind, pure, Except.pure]

structure ReadError where
  literal : Text
  component : Text
deriving DecidableEq, Repr

def ReadError.message (error : ReadError) : Text :=
  "Invalid date/time literal ".toList ++ Quoted.quote error.literal ++ ": component ".toList ++
    Quoted.quote error.component ++ " is not an integer".toList

def readComponent (literal component : Text) : Except ReadError Int :=
  match Numeral.readInt? component with
  | some n => .ok n
  | none => .error ⟨literal, component⟩

def readComponents (literal : Text) : List Text → Except ReadError (List Int)
  | [] => .ok []
  | component :: rest => do
    let first ← readComponent literal component
    let others ← readComponents literal rest
    return first :: others

theorem readComponents_length {literal : Text} {components : List Text} {values : List Int}
    (h : readComponents literal components = .ok values) : values.length = components.length := by
  induction components generalizing values with
  | nil =>
    cases h
    rfl
  | cons component rest ih =>
    simp only [readComponents, bind, Except.bind, pure, Except.pure] at h
    split at h
    · cases h
    · split at h
      · cases h
      · next eq =>
        cases h
        simp [ih eq]

theorem readComponents_eq_error_iff {literal : Text} {components : List Text} {error : ReadError} :
    readComponents literal components = .error error ↔
      ∃ before component after, components = before ++ component :: after ∧
        (∀ good ∈ before, Numeral.readInt? good ≠ none) ∧ Numeral.readInt? component = none ∧
        error = ⟨literal, component⟩ := by
  induction components with
  | nil => simp [readComponents]
  | cons first rest ih =>
    cases h : Numeral.readInt? first with
    | none =>
      simp only [readComponents, readComponent, h, bind, Except.bind, Except.error.injEq]
      constructor
      · rintro rfl
        exact ⟨[], first, rest, rfl, by simp, h, rfl⟩
      · rintro ⟨before, component, after, eq, good, -, rfl⟩
        cases before with
        | nil => simp_all
        | cons head tail =>
          obtain ⟨rfl, -⟩ := List.cons.inj eq
          exact absurd h (good first (by simp))
    | some n =>
      have step : readComponents literal (first :: rest) = .error error ↔
          readComponents literal rest = .error error := by
        simp only [readComponents, readComponent, h, bind, Except.bind]
        cases readComponents literal rest <;> simp [pure, Except.pure]
      rw [step, ih]
      constructor
      · rintro ⟨before, component, after, rfl, good, bad, rfl⟩
        exact ⟨first :: before, component, after, rfl, by simp_all, bad, rfl⟩
      · rintro ⟨before, component, after, eq, good, bad, rfl⟩
        cases before with
        | nil =>
          obtain ⟨rfl, -⟩ := List.cons.inj eq
          simp [h] at bad
        | cons head tail =>
          obtain ⟨rfl, rfl⟩ := List.cons.inj eq
          exact ⟨tail, component, after, rfl, fun c member => good c (by simp [member]), bad, rfl⟩

/-- The value of an ASCII digit; every other character counts as zero. -/
def fractionDigit (c : Char) : Nat := if c.isDigit then c.toNat - 48 else 0

/-- The whole number of a fraction's first digits, one more than the given number of them. The
digit after these rounds half up; missing digits are zeros. -/
def readFraction : Nat → Text → Nat
  | _, [] => 0
  | 0, c :: rest =>
    fractionDigit c + if (rest.head?.map fractionDigit).getD 0 < 5 then 0 else 1
  | more + 1, c :: rest => Nat.pow 10 (more + 1) * fractionDigit c + readFraction more rest

def dateComponents (literal : Text) : List Text := Text.pieces '-' 2 literal

def dateOfComponents (values : List Int) : CalendarDate :=
  ⟨values.getD 0 0, values.getD 1 1, values.getD 2 1⟩

def readDate (literal : Text) : Except ReadError Int := do
  let values ← readComponents literal (dateComponents literal)
  return (dateOfComponents values).toUnix

/-- The components of a time literal, one to three of them, and the text behind the point that ends
the third. -/
def timeComponents (text : Text) : List Text × Text :=
  match Text.pieces ':' 2 text with
  | [hour, minute, second] =>
    match Text.cutAt? '.' second with
    | some (second, fraction) => ([hour, minute, second], fraction)
    | none => ([hour, minute, second], [])
  | components => (components, [])

def readTimeOf (literal text : Text) : Except ReadError Int := do
  let (components, fraction) := timeComponents text
  let values ← readComponents literal components
  return Timestamp.clockMillis (values.getD 0 0) (values.getD 1 0) (values.getD 2 0) +
    readFraction 2 (Text.strip fraction)

def readTime (literal : Text) (start : Int) : Except ReadError Int :=
  readTimeOf literal (literal.suffixFrom start)

/-- The date ends at the first space; a missing time is midnight. -/
def readTimestamp (text : Text) : Except ReadError Int :=
  let literal := Text.strip text
  match Text.cutAt? ' ' literal with
  | none => do
    let date ← readDate literal
    return Timestamp.onDate date 0
  | some (date, time) => do
    let date ← readDate date
    let time ← readTimeOf literal time
    return Timestamp.onDate date time

example : readFraction 2 "9995".toList = 1000 := by decide
example : readFraction 2 "-5".toList = 50 := by decide

end Almanac.Literal
