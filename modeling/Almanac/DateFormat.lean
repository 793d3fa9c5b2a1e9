import Almanac.PatternMatch
import Almanac.Value

/-!
Whole texts read by a format. A format is anything that finds a value at the start of a text and
says where it ends; patterns are formats, whose values are date-times. Behind a date-time a text may
go on with a point and the digits of a fraction of a second. A text that does not match is an answer
of its own, with a note that says why. Main statement: a fraction kept has as many digits as its
precision says.
-/

namespace Almanac

/-- A value that was found at the start of a text, and the position just behind it. -/
structure Found where
  value : Value
  stop : Int
deriving DecidableEq, Repr

structure DateFormat where
  /-- The format as notes show it. -/
  description : Text
  read : Text → Zone → Except DatePattern.DigitLimit (Option Found)

def DatePattern.description (pattern : DatePattern) : Text :=
  "SimpleDateFormat(".toList ++ Quoted.quote pattern.text ++ [')']

def DatePattern.toFormat (pattern : DatePattern) : DateFormat where
  description := pattern.description
  read text zone := (pattern.read text 0 zone).map fun match? =>
    match?.map fun found => ⟨.dateTime found.value, found.stop⟩

theorem DatePattern.toFormat_read_eq_some_iff {pattern : DatePattern} {text : Text} {zone : Zone}
    {value : Value} {stop : Int} :
    pattern.toFormat.read text zone = .ok (some ⟨value, stop⟩) ↔
      ∃ moment, value = .dateTime moment ∧
        pattern.read text 0 zone = .ok (some ⟨moment, stop⟩) := by
  constructor
  · intro h
    obtain ⟨match?, taken, same⟩ := exists_of_map_ok h
    obtain ⟨found, rfl, same⟩ := Option.map_eq_some_iff.1 same
    cases same
    exact ⟨found.value, rfl, taken⟩
  · rintro ⟨moment, rfl, taken⟩
    simp only [toFormat, taken]
    rfl

inductive Mismatch where
  | noMatch (text format : Text)
  | trailing (text rest format : Text)
  | fraction (text digits : Text)
deriving DecidableEq, Repr

def Mismatch.message : Mismatch → Text
  | noMatch text format => Quoted.quote text ++ " does not match ".toList ++ format
  | trailing text rest format =>
    Quoted.quote text ++ " has trailing text ".toList ++ Quoted.quote rest ++ " after ".toList ++
      format
  | fraction text digits =>
    Quoted.quote text ++ " has a non-numeric fraction ".toList ++ Quoted.quote digits

inductive Outcome (α : Type) where
  | found (value : α)
  | mismatch (reason : Mismatch)
deriving DecidableEq, Repr

inductive ReadFault where
  | digitLimit
  | outOfRange
  | noDateTime
deriving DecidableEq, Repr

/-- A date-time with the digits of its fraction of a second, whose milliseconds it contains. -/
structure PrecisionTime where
  value : DateTime
  fraction : Text
  precision : Int
deriving DecidableEq, Repr

/-- Milliseconds since the epoch; none for a value without an offset. -/
def PrecisionTime.toUnixTimestamp? (time : PrecisionTime) : Option Int :=
  time.value.offset?.map fun _ => time.value.instant / 1000

namespace DateFormat

def readWhole (format : DateFormat) (text : Text) (zone : Zone) :
    Except ReadFault (Outcome Value) :=
  match format.read text zone with
  | .error .exceeded => .error .digitLimit
  | .ok none => .ok (.mismatch (.noMatch text format.description))
  | .ok (some { value, stop }) =>
    if stop = text.length then .ok (.found value)
    else .ok (.mismatch (.trailing text (text.suffixFrom stop) format.description))

/-- The digits kept of a fraction; all of them if the greatest precision is negative. -/
def keptDigits (digits : Text) (maxPrecision : Int) : Text :=
  if 0 ≤ maxPrecision then digits.take maxPrecision.toNat else digits

def fractionMillis (fraction : Text) : Nat :=
  Nat.ofDigitChars 10 ((fraction.take 3).rightpad 3 '0') 0

def withFraction (moment : DateTime) (fraction : Text) : Except ReadFault PrecisionTime :=
  match moment.reading.add? (fractionMillis fraction * 1000) with
  | some reading => .ok ⟨{ moment with reading }, fraction, fraction.length⟩
  | none => .error .outOfRange

def needDateTime (value : Value) : Except ReadFault DateTime :=
  match value.dateTime? with
  | some moment => .ok moment
  | none => .error .noDateTime

def readPrecision (format : DateFormat) (text : Text) (zone : Zone) (maxPrecision : Int) :
    Except ReadFault (Outcome PrecisionTime) :=
  match format.read text zone with
  | .error .exceeded => .error .digitLimit
  | .ok none => .ok (.mismatch (.noMatch text format.description))
  | .ok (some { value, stop }) =>
    if stop < text.length then
      match text.suffixFrom stop with
      | '.' :: digits =>
        if digits.all Char.isDigit then
          do
            let moment ← needDateTime value
            let time ← withFraction moment (keptDigits digits maxPrecision)
            return .found time
        else .ok (.mismatch (.fraction text digits))
      | rest => .ok (.mismatch (.trailing text rest format.description))
    else do
      let moment ← needDateTime value
      return .found ⟨moment, [], 0⟩

theorem precision_of_withFraction {moment : DateTime} {fraction : Text} {time : PrecisionTime}
    (h : withFraction moment fraction = .ok time) :
    time.fraction = fraction ∧ time.precision = fraction.length := by
  unfold withFraction at h
  split at h
  · cases h
    exact ⟨rfl, rfl⟩
  · cases h

end DateFormat

end Almanac
