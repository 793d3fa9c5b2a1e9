import Almanac.Arithmetic
import Almanac.Literal
import Almanac.UnitRange

/-!
Intervals as literal text. Year-month intervals are counted in months, day-time intervals in
milliseconds. The magnitude is rounded half up to the last field of the range before it is split
into fields, so that a carry reaches the fields in front. Main statement: the fields of a day-time
interval and what is left over add up to the magnitude that was split.
-/

namespace Almanac.IntervalText

inductive Fault where
  | unsupported (error : UnsupportedRange)
  | unwritable (fault : Numeral.WriteFault)
deriving DecidableEq, Repr

def signText (amount : Int) : Text := if 0 ≤ amount then ['+'] else ['-']

/-- A sign and fields. The number of the leading one has no bound but that of all numbers. -/
@[macro_inline]
def written (amount leading : Int) (places : Nat) (fields : Text) : Except Fault Text :=
  (Numeral.limited leading places (signText amount ++ fields)).mapError .unwritable

def writeYearMonth (months : Int) (range : UnitRange) : Except Fault Text :=
  let magnitude : Int := months.natAbs
  match range with
  | .year =>
    let years := Arithmetic.roundHalfUp magnitude 12 / 12
    written months years 0 (Numeral.decimal years)
  | .yearToMonth =>
    written months (magnitude / 12) 0
      (Numeral.decimal (magnitude / 12) ++ '-' :: Numeral.number (magnitude % 12) 2)
  | .month => written months magnitude 0 (Numeral.decimal magnitude)
  | _ => .error (.unsupported (.yearMonthText range))

def dayTimeUnits? : UnitRange → Option (List TimeUnit)
  | .day => some [.day]
  | .dayToHour => some [.day, .hour]
  | .dayToMinute => some [.day, .hour, .minute]
  | .dayToSecond => some [.day, .hour, .minute, .second]
  | .hour => some [.hour]
  | .hourToMinute => some [.hour, .minute]
  | .hourToSecond => some [.hour, .minute, .second]
  | .minute => some [.minute]
  | .minuteToSecond => some [.minute, .second]
  | .second => some [.second]
  | _ => none

def unitMillis : TimeUnit → Int
  | .day => millisPerDay
  | .hour => millisPerHour
  | .minute => millisPerMinute
  | _ => millisPerSecond

structure Fields where
  values : List (TimeUnit × Int)
  rest : Int
deriving DecidableEq, Repr

def Fields.leading (fields : Fields) : Int := (fields.values.head?.map Prod.snd).getD 0

def split : List TimeUnit → Int → Fields
  | [], amount => ⟨[], amount⟩
  | unit :: smaller, amount =>
    let fields := split smaller (amount % unitMillis unit)
    { fields with values := (unit, amount / unitMillis unit) :: fields.values }

def total (values : List (TimeUnit × Int)) : Int :=
  values.foldr (fun (unit, value) rest => value * unitMillis unit + rest) 0

theorem total_split (units : List TimeUnit) (amount : Int) :
    total (split units amount).values + (split units amount).rest = amount := by
  induction units generalizing amount with
  | nil => simp [split, total]
  | cons unit smaller ih =>
    have parts := Int.mul_ediv_add_emod amount (unitMillis unit)
    have order := Int.mul_comm (unitMillis unit) (amount / unitMillis unit)
    have rest := ih (amount % unitMillis unit)
    simp only [split, total, List.foldr_cons] at *
    omega

/-- What a magnitude is rounded to: the last unit of the range, or the last digit of a second that
the scale keeps, but no less than a millisecond. -/
def roundingUnit (range : UnitRange) (scale : Int) : Int :=
  if range.last = .second then Arithmetic.power 10 (3 - scale) else unitMillis range.last

/-- Hours follow days after a space, all other fields follow after a colon; each has two digits. -/
def followingField (unit : TimeUnit) (value : Int) : Text :=
  (if unit = .hour then ' ' else ':') :: Numeral.number value 2

def fieldsText : List (TimeUnit × Int) → Text
  | [] => []
  | (_, leading) :: following =>
    Numeral.decimal leading ++ following.flatMap fun (unit, value) => followingField unit value

/-- A range that ends in seconds has as many digits of a fraction as the scale asks for. -/
def places (range : UnitRange) (scale : Int) : Nat :=
  if range.last = .second then scale.toNat else 0

def fractionOf (rest : Int) (places : Nat) : Text :=
  if places = 0 then [] else '.' :: Literal.fractionText rest places

def writeDayTime (millis : Int) (range : UnitRange) (scale : Int) : Except Fault Text :=
  match dayTimeUnits? range with
  | none => .error (.unsupported (.dayTimeText range))
  | some units =>
    let fields := split units (Arithmetic.roundHalfUp millis.natAbs (roundingUnit range scale))
    let places := places range scale
    written millis fields.leading places
      (fieldsText fields.values ++ fractionOf fields.rest places)

theorem written_ne_unsupported {amount leading : Int} {places : Nat} {fields : Text}
    (error : UnsupportedRange) :
    written amount leading places fields ≠ .error (.unsupported error) := by
  unfold written
  cases Numeral.limited leading places (signText amount ++ fields) with
  | ok text => exact nofun
  | error fault =>
    intro same
    cases Except.error.inj same

theorem writeDayTime_eq_unsupported_iff {millis scale : Int} {range : UnitRange}
    {error : UnsupportedRange} :
    writeDayTime millis range scale = .error (.unsupported error) ↔
      dayTimeUnits? range = none ∧ error = .dayTimeText range := by
  cases h : dayTimeUnits? range with
  | none => simp [writeDayTime, h, eq_comm]
  | some units => simp [writeDayTime, h, written_ne_unsupported]

end Almanac.IntervalText
