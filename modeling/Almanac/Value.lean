import Almanac.DateTime

/-!
Values of any kind that arrive where a date, a time or an instant is expected. Each conversion says
of a value that it does not take what is wrong with it, and shows the value or its zone. Main
statements: exactly the date-times with an offset have an offset text, and exactly the dates, times
and date-times have an ISO text.
-/

namespace Almanac

inductive Value where
  | dateTime (dateTime : DateTime)
  | date (date : CalendarDate)
  | time (time : ClockTime) (zone? : Option Zone)
  | text (text : Text)
  | integer (n : Int)
  | truth (b : Bool)
  | absent
deriving DecidableEq, Repr

inductive ValueError where
  /-- No date-time, or one without an offset. -/
  | noOffset (value : Value)
  /-- A time that names a zone, which has no date to resolve its offset. -/
  | zonedTime (zone : Zone)
  /-- A value that cannot be compared with an instant. -/
  | noInstant
  /-- A value of a kind that lacks what is asked of it. -/
  | wrongKind
  /-- An instant that leaves the years 1..9999. -/
  | outOfRange
deriving DecidableEq, Repr

namespace Value

/-- Hour and minute, then second and microsecond up to the last one that is not zero. -/
def clockArguments (time : ClockTime) : List Int :=
  [time.hour, time.minute] ++
    if time.micro ≠ 0 then [time.second, time.micro]
    else if time.second ≠ 0 then [time.second] else []

def call (name : Text) (arguments : List Int) (zone? : Option Zone) : Text :=
  let zone := match zone? with
    | none => []
    | some zone => ["tzinfo=".toList ++ zone.description]
  name ++ '(' :: Text.join ", ".toList (arguments.map Numeral.decimal ++ zone) ++ [')']

def description : Value → Text
  | dateTime ⟨reading, zone?⟩ =>
    let day := reading.date
    call "datetime.datetime".toList
      ([day.year, day.month, day.day] ++ clockArguments reading.time) zone?
  | date day => call "datetime.date".toList [day.year, day.month, day.day] none
  | time clock zone? => call "datetime.time".toList (clockArguments clock) zone?
  | text shown => Quoted.quote shown
  | integer n => Numeral.decimal n
  | truth b => Text.ofBool b
  | absent => "None".toList

/-- The text of a date, a time or a date-time. A time has no date to look an offset up for, so it
shows one only if its zone needs no date. -/
def isoText? : Value → Option Text
  | dateTime moment => some moment.text
  | date day => some (Literal.writeCalendarDate day)
  | time clock zone? =>
    some (clock.text ++ ((zone?.bind Zone.dateless?).map Zone.offsetText).getD [])
  | _ => none

theorem isoText?_eq_none_iff {value : Value} :
    value.isoText? = none ↔ (∃ shown, value = text shown) ∨ (∃ n, value = integer n) ∨
      (∃ b, value = truth b) ∨ value = absent := by
  cases value <;> simp [isoText?]

def dateTime? : Value → Option DateTime
  | dateTime moment => some moment
  | _ => none

def offsetDateTime? (value : Value) : Option DateTime :=
  value.dateTime?.filter (·.offset?.isSome)

def isOffsetDateTime (value : Value) : Bool := value.offsetDateTime?.isSome

def offsetText (value : Value) : Except ValueError Text :=
  match value.offsetDateTime? with
  | some moment => .ok moment.text
  | none => .error (.noOffset value)

theorem offsetText_isOk_iff {value : Value} :
    (∃ text, value.offsetText = .ok text) ↔ value.isOffsetDateTime := by
  unfold offsetText isOffsetDateTime
  split <;> simp_all

def toUnixTimestamp : Value → Except ValueError Int
  | dateTime moment =>
    match moment.toUnixTimestamp with
    | .ok timestamp => .ok timestamp
    | .error _ => .error .outOfRange
  | time _ none | time _ (some (.unspecified _)) => .error .noInstant
  | _ => .error .wrongKind

def second? : Value → Except ValueError (Option Int)
  | dateTime moment => .ok (some moment.reading.second)
  | absent => .ok none
  | _ => .error .wrongKind

/-- Sets the clock of a date-time from UTC to the host's local time. The zone it names is kept. -/
def toLocal (rules : LocalRules) : Value → Except ValueError Value
  | dateTime moment =>
    match DateTime.inZone moment.reading (.host rules) with
    | .ok shown => .ok (dateTime { shown with zone? := moment.zone? })
    | .error _ => .error .outOfRange
  | date _ | time _ _ | text _ => .error .noInstant
  | integer _ | truth _ | absent => .error .wrongKind

/-- Of a date-time only the date counts. -/
def toUnixDate : Value → Except ValueError Int
  | dateTime moment => .ok moment.reading.date.toUnixByOrdinal
  | date day => .ok day.toUnixByOrdinal
  | _ => .error .wrongKind

/-- Of a date-time only the time counts; neither may name a zone. -/
def toUnixTime : Value → Except ValueError Int
  | dateTime ⟨reading, none⟩ => .ok reading.time.toUnixTime
  | time clock none => .ok clock.toUnixTime
  | dateTime ⟨_, some zone⟩ | time _ (some zone) => .error (.zonedTime zone)
  | _ => .error .wrongKind

end Value

def ValueError.message? : ValueError → Option Text
  | noOffset value =>
    some ("expected a datetime with a UTC offset, got ".toList ++ value.description)
  | zonedTime zone =>
    some ("t must be a naive time (no tzinfo), got tzinfo=".toList ++ zone.description ++
      ". A time of day has no date to resolve its offset against.".toList)
  | _ => none

end Almanac
