import Almanac.IsoWeek
import Almanac.Numeral

/-!
Dates of the years 1..9999 in ISO text, by month and day or by week and weekday, with hyphens
between all parts or none. A text of seven, eight or ten bytes is read from its start; a date
without hyphens may leave the last two of ten unread.
-/

namespace Almanac.IsoDate

def digits? (count : Nat) (text : Text) : Option (Int × Text) :=
  let front := text.take count
  if front.length = count ∧ front.all Char.isDigit then
    some (Nat.ofDigitChars 10 front 0, text.drop count)
  else none

def hyphen? (inUse : Bool) (text : Text) : Option Text :=
  match inUse, text with
  | false, text => some text
  | true, '-' :: rest => some rest
  | true, _ => none

def weekDate? (year week weekday : Int) : Option Int :=
  if 1 ≤ week ∧ week ≤ IsoWeek.weeksInYear year ∧ 1 ≤ weekday ∧ weekday ≤ 7 then
    some (IsoWeek.firstMonday year + 7 * (week - 1) + (weekday - 1) - epochJulian)
  else none

def monthDate? (date : CalendarDate) : Option Int :=
  if date.Valid then some date.toUnix else none

/-- Reads a week date behind its `W`; without a weekday it is the Monday. -/
def readWeek? (year : Int) (hyphens : Bool) (text : Text) : Option Int := do
  let (week, rest) ← digits? 2 text
  if rest = [] then weekDate? year week 1
  else
    let (weekday, _) ← (hyphen? hyphens rest).bind (digits? 1)
    weekDate? year week weekday

def readMonth? (year : Int) (hyphens : Bool) (text : Text) : Option Int := do
  let (month, rest) ← digits? 2 text
  let (day, _) ← (hyphen? hyphens rest).bind (digits? 2)
  monthDate? ⟨year, month, day⟩

def read? (text : Text) : Option Int := do
  let bytes := text.foldr (fun c rest => c.utf8Size + rest) 0
  if bytes ≠ 7 ∧ bytes ≠ 8 ∧ bytes ≠ 10 then none
  else
    let (year, rest) ← digits? 4 text
    let hyphens := rest.head? = some '-'
    let unixDate ← match ← hyphen? hyphens rest with
      | 'W' :: rest => readWeek? year hyphens rest
      | rest => readMonth? year hyphens rest
    if 1 ≤ year ∧ (CalendarDate.ofUnix unixDate).year ≤ 9999 then some unixDate else none

example : read? "2020-W53-5".toList = read? "2021-01-01".toList := by decide
example : read? "20210101".toList = some 18628 := by decide

end Almanac.IsoDate
