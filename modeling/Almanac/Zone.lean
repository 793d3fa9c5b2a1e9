import Almanac.LocalRules
import Almanac.Numeral

/-!
What a clock reading may say of its distance from UTC, in microseconds: a fixed offset, the rules of
the host's local clock, or a zone that leaves the offset open.
-/

namespace Almanac

abbrev microsPerSecond : Int := 1000000
abbrev microsPerDay : Int := 86400000000

inductive Zone where
  | fixed (offset : Int)
  | host (rules : LocalRules)
  /-- Names no offset. A reading that has to be placed in time is read by the host's clock. -/
  | unspecified (host : LocalRules)
deriving DecidableEq, Repr

namespace Zone

def utc : Zone := fixed 0

/-- The zone of a fixed offset, which is shorter than a day. -/
def ofOffset? (offset : Int) : Option Zone :=
  if -microsPerDay < offset ∧ offset < microsPerDay then some (fixed offset) else none

def orHost (zone? : Option Zone) (rules : LocalRules) : Zone := zone?.getD (host rules)

def orUnspecified (zone? : Option Zone) (rules : LocalRules) : Zone :=
  zone?.getD (unspecified rules)

def offset? : Zone → Int → Option Int
  | fixed offset, _ => some offset
  | host rules, reading =>
    some (rules.offsetAtReading (reading / microsPerSecond) * microsPerSecond)
  | unspecified _, _ => none

/-- The offset where no date is known: the host's is then the one of its standard time. -/
def dateless? : Zone → Option Int
  | fixed offset => some offset
  | host rules => some (rules.offset * microsPerSecond)
  | unspecified _ => none

/-- A signed offset in hours and minutes, with seconds and microseconds only if there are any. -/
def offsetText (offset : Int) : Text :=
  let magnitude : Int := offset.natAbs
  let seconds := magnitude / microsPerSecond
  let micros := magnitude % microsPerSecond
  (if offset < 0 then '-' else '+') :: Numeral.zeroPadded 2 (seconds / 3600) ++
    ':' :: Numeral.zeroPadded 2 (seconds / 60 % 60) ++
    (if seconds % 60 = 0 ∧ micros = 0 then [] else ':' :: Numeral.zeroPadded 2 (seconds % 60)) ++
    (if micros = 0 then [] else '.' :: Numeral.zeroPadded 6 micros)

example : offsetText (-500) = "-00:00:00.000500".toList := by decide

/-- An offset as days, seconds and microseconds, only the days negative, parts of zero left out. -/
def spanDescription (offset : Int) : Text :=
  let parts := [("days=".toList, offset / microsPerDay),
    ("seconds=".toList, offset % microsPerDay / microsPerSecond),
    ("microseconds=".toList, offset % microsPerSecond)]
  Text.join ", ".toList <|
    (parts.filter (·.2 ≠ 0)).map fun (label, value) => label ++ Numeral.decimal value

def description : Zone → Text
  | fixed offset =>
    if offset = 0 then "datetime.timezone.utc".toList
    else "datetime.timezone(datetime.timedelta(".toList ++ spanDescription offset ++ "))".toList
  | host _ => "DEFAULT_ZONE".toList
  | unspecified _ => "NoOffset".toList

end Zone

end Almanac
