import Almanac.Decimal

/-!
The units that fields of dates, times and intervals are measured in, with their mean sizes in
seconds and the bounds of the fields that follow a larger one. Main statement: a unit is found
again by its name.
-/

namespace Almanac

inductive TimeUnit where
  | year | month | day | hour | minute | second
  | quarter | isoYear | week
  | millisecond | microsecond | nanosecond
  | dayOfWeek | isoDayOfWeek | dayOfYear | epoch
  | decade | century | millennium
deriving DecidableEq, Repr

namespace TimeUnit

def all : List TimeUnit :=
  [year, month, day, hour, minute, second, quarter, isoYear, week, millisecond, microsecond,
    nanosecond, dayOfWeek, isoDayOfWeek, dayOfYear, epoch, decade, century, millennium]

theorem mem_all (unit : TimeUnit) : unit ∈ all := by cases unit <;> decide

def label : TimeUnit → Text
  | year => "year".toList
  | month => "month".toList
  | day => "day".toList
  | hour => "hour".toList
  | minute => "minute".toList
  | second => "second".toList
  | quarter => "quarter".toList
  | isoYear => "isoyear".toList
  | week => "week".toList
  | millisecond => "millisecond".toList
  | microsecond => "microsecond".toList
  | nanosecond => "nanosecond".toList
  | dayOfWeek => "dow".toList
  | isoDayOfWeek => "isodow".toList
  | dayOfYear => "doy".toList
  | epoch => "epoch".toList
  | decade => "decade".toList
  | century => "century".toList
  | millennium => "millennium".toList

def name (unit : TimeUnit) : Text := unit.label.map Char.toUpper

def ofName? (name : Text) : Option TimeUnit :=
  all.find? fun unit => unit.name = name

theorem ofName?_name (unit : TimeUnit) : ofName? unit.name = some unit := by
  cases unit <;> decide

/-- Seconds of a twelfth of the mean Gregorian year of 365.2425 days. -/
def meanMonth : Int := 2629746

/-- The length of one unit in seconds; units that number days have the length of a day. -/
def size : TimeUnit → Decimal
  | year | isoYear => .ofInt (12 * meanMonth)
  | month => .ofInt meanMonth
  | quarter => .ofInt (3 * meanMonth)
  | decade => .ofInt (10 * (12 * meanMonth))
  | century => .ofInt (100 * (12 * meanMonth))
  | millennium => .ofInt (1000 * (12 * meanMonth))
  | week => .ofInt (7 * 86400)
  | day | dayOfWeek | isoDayOfWeek | dayOfYear => .ofInt 86400
  | hour => .ofInt 3600
  | minute => .ofInt 60
  | second | epoch => .ofInt 1
  | millisecond => .finite 1 (-3)
  | microsecond => .finite 1 (-6)
  | nanosecond => .finite 1 (-9)

def isYearMonth : TimeUnit → Bool
  | year | month | quarter | isoYear | decade | century | millennium => true
  | _ => false

/-- The bound, excluded, of the unit's field when it follows a larger one. -/
def limit? : TimeUnit → Option Int
  | month => some 12
  | hour => some 24
  | minute | second => some 60
  | quarter => some 4
  | millisecond => some 1000
  | microsecond => some 1000000
  | nanosecond => some 1000000000
  | _ => none

def IsValidValue (unit : TimeUnit) (value : Decimal) : Prop :=
  ¬value.Below 0 ∧ ∀ limit ∈ unit.limit?, value.Below limit

instance (unit : TimeUnit) (value : Decimal) : Decidable (unit.IsValidValue value) :=
  match h : unit.limit? with
  | none => decidable_of_iff (¬value.Below 0) (by simp [IsValidValue, h])
  | some limit =>
    decidable_of_iff (¬value.Below 0 ∧ value.Below limit) (by simp [IsValidValue, h])

def description (unit : TimeUnit) : Text :=
  "<TimeUnit.".toList ++ unit.name ++ ": ('".toList ++ unit.label ++ "', Decimal('".toList ++
    unit.size.text ++ "'), ".toList ++ Text.ofBool unit.isYearMonth ++ ", ".toList ++
    (unit.limit?.map Numeral.decimal).getD "None".toList ++ ")>".toList

end TimeUnit

end Almanac
