import Almanac.Numeral

/-!
Exact decimal numbers: a whole coefficient times a power of ten, and the two infinities. They hold
the sizes of time units and the values of interval fields, of which only the order against whole
numbers is asked. Main statements: where the power of ten outweighs the bound, or the coefficient
that a scaled bound is compared with, signs alone decide that order, and the power, which may have
any size, is not worked out.
-/

namespace Almanac

inductive Decimal where
  | finite (coefficient exponent : Int)
  | infinite (negative : Bool)
deriving DecidableEq, Repr

namespace Decimal

def ofInt (n : Int) : Decimal := finite n 0

def tenTo (power : Nat) : Int := Int.pow 10 power

theorem tenTo_zero : tenTo 0 = 1 :=
  Int.pow_zero 10

theorem tenTo_pos (power : Nat) : 0 < tenTo power :=
  Int.pow_pos (by decide)

/-- Of a finite number, both sides are scaled to whole numbers. -/
def Below : Decimal → Int → Prop
  | finite coefficient exponent, bound =>
    coefficient * tenTo exponent.toNat < bound * tenTo (-exponent).toNat
  | infinite negative, _ => negative = true

/-- Whether a power of ten has more binary digits than a number, and so outweighs it. -/
def Outweighs (power : Nat) (n : Int) : Prop := n.natAbs.log2 < power

instance (power : Nat) (n : Int) : Decidable (Outweighs power n) :=
  inferInstanceAs (Decidable (_ < _))

theorem natAbs_lt_of_outweighs {power : Nat} {n : Int} (h : Outweighs power n) :
    (n.natAbs : Int) < tenTo power := by
  change (n.natAbs : Int) < 10 ^ power
  have length : n.natAbs < 2 ^ (n.natAbs.log2 + 1) := Nat.lt_log2_self
  have binary : 2 ^ (n.natAbs.log2 + 1) ≤ 2 ^ power := Nat.pow_le_pow_right (by decide) h
  have decimal : 2 ^ power ≤ 10 ^ power := Nat.pow_le_pow_left (by decide) power
  have : n.natAbs < 10 ^ power := by omega
  exact_mod_cast this

theorem mul_pow_lt_iff {coefficient bound : Int} {power : Nat} (h : Outweighs power bound) :
    coefficient * tenTo power < bound ↔ coefficient < 0 ∨ coefficient = 0 ∧ 0 < bound := by
  have heavy := natAbs_lt_of_outweighs h
  generalize tenTo power = scale at *
  rcases Int.lt_trichotomy coefficient 0 with negative | rfl | positive
  · have : coefficient * scale ≤ -1 * scale :=
      Int.mul_le_mul_of_nonneg_right (by omega) (by omega)
    omega
  · simp
  · have : 1 * scale ≤ coefficient * scale :=
      Int.mul_le_mul_of_nonneg_right (by omega) (by omega)
    omega

theorem lt_mul_pow_iff {coefficient bound : Int} {power : Nat} (h : Outweighs power coefficient) :
    coefficient < bound * tenTo power ↔ 0 < bound ∨ bound = 0 ∧ coefficient < 0 := by
  have heavy := natAbs_lt_of_outweighs h
  generalize tenTo power = scale at *
  rcases Int.lt_trichotomy bound 0 with negative | rfl | positive
  · have : bound * scale ≤ -1 * scale :=
      Int.mul_le_mul_of_nonneg_right (by omega) (by omega)
    omega
  · simp
  · have : 1 * scale ≤ bound * scale :=
      Int.mul_le_mul_of_nonneg_right (by omega) (by omega)
    omega

theorem below_iff_of_outweighs_bound {coefficient exponent bound : Int}
    (h : Outweighs exponent.toNat bound) :
    (finite coefficient exponent).Below bound ↔ coefficient < 0 ∨ coefficient = 0 ∧ 0 < bound := by
  have whole : (-exponent).toNat = 0 := by
    have : 0 < exponent.toNat := Nat.zero_lt_of_lt h
    omega
  simp only [Below, whole, tenTo_zero, Int.mul_one, mul_pow_lt_iff h]

theorem below_iff_of_outweighs_coefficient {coefficient exponent bound : Int}
    (h : Outweighs (-exponent).toNat coefficient) :
    (finite coefficient exponent).Below bound ↔ 0 < bound ∨ bound = 0 ∧ coefficient < 0 := by
  have fraction : exponent.toNat = 0 := by
    have : 0 < (-exponent).toNat := Nat.zero_lt_of_lt h
    omega
  simp only [Below, fraction, tenTo_zero, Int.mul_one, lt_mul_pow_iff h]

instance (x : Decimal) (bound : Int) : Decidable (x.Below bound) :=
  match x with
  | infinite negative => inferInstanceAs (Decidable (negative = true))
  | finite coefficient exponent =>
    if large : Outweighs exponent.toNat bound then
      decidable_of_iff _ (below_iff_of_outweighs_bound large).symm
    else if small : Outweighs (-exponent).toNat coefficient then
      decidable_of_iff _ (below_iff_of_outweighs_coefficient small).symm
    else inferInstanceAs (Decidable (_ < _))

theorem below_ofInt {n bound : Int} : (ofInt n).Below bound ↔ n < bound := by
  simp [ofInt, Below, tenTo_zero]

theorem finite_below_zero {coefficient exponent : Int} :
    (finite coefficient exponent).Below 0 ↔ coefficient < 0 := by
  have scale := tenTo_pos exponent.toNat
  simp only [Below, Int.zero_mul]
  constructor
  · intro h
    refine Int.lt_of_not_ge fun nonneg => ?_
    have := Int.mul_nonneg nonneg (Int.le_of_lt scale)
    omega
  · intro h
    exact Int.mul_neg_of_neg_of_pos h scale

/-- Digits with a point where the exponent puts it. With a positive exponent, or more than five
zeros behind the point, the first digit stands alone and a power of ten follows. -/
def finiteText (coefficient exponent : Int) : Text :=
  let digits := Numeral.digits coefficient.natAbs
  let count : Int := digits.length
  let whole := exponent + count
  let positional := exponent ≤ 0 ∧ -6 < whole
  let place := if positional then whole else 1
  let mantissa :=
    if place ≤ 0 then '0' :: '.' :: List.replicate (-place).toNat '0' ++ digits
    else if count ≤ place then digits ++ List.replicate (place - count).toNat '0'
    else digits.take place.toNat ++ '.' :: digits.drop place.toNat
  let power := whole - place
  let scale :=
    if power = 0 then []
    else 'E' :: (if power < 0 then [] else ['+']) ++ Numeral.decimal power
  (if coefficient < 0 then ['-'] else []) ++ mantissa ++ scale

def text : Decimal → Text
  | finite coefficient exponent => finiteText coefficient exponent
  | infinite negative => (if negative then ['-'] else []) ++ "Infinity".toList

/-- The greatest power of ten that the first digit of a number may stand for. -/
def maxPower : Int := 999999999999999999

def minPower : Int := -1999999999999999997

def ofDigits? (negative : Bool) (values : List Nat) (exponent : Int) : Option Decimal :=
  let significant := values.dropWhile (· = 0)
  if minPower ≤ exponent ∧ exponent + max significant.length 1 - 1 ≤ maxPower then
    some (finite (Numeral.signed negative (Numeral.ofDigits significant)) exponent)
  else none

def readPower? (text : Text) : Option Int :=
  let (negative, magnitude) := Numeral.cutSign text
  (Numeral.digitValues? magnitude).map fun values =>
    Numeral.signed negative (Numeral.ofDigits values)

/-- Reads a sign, and then either infinity or digits with at most one point among them and a power
of ten after an `E`. Underscores and the case of letters do not count. -/
def ofText? (text : Text) : Option Decimal := do
  let plain := ((Text.strip text).filter (· ≠ '_')).map Char.toUpper
  let (negative, magnitude) := Numeral.cutSign plain
  if magnitude = "INF".toList ∨ magnitude = "INFINITY".toList then return infinite negative
  let (mantissa, power) ← match Text.cutAt? 'E' magnitude with
    | none => some (magnitude, 0)
    | some (mantissa, power) => (readPower? power).map fun power => (mantissa, power)
  let (whole, fraction) := (Text.cutAt? '.' mantissa).getD (mantissa, [])
  let values ← Numeral.digitValues? (whole ++ fraction)
  ofDigits? negative values (power - fraction.length)

example : text (finite 1 (-9)) = "1E-9".toList := by decide
example : text (finite 1 (-6)) = "0.000001".toList := by decide
example : text (finite 59999 (-3)) = "59.999".toList := by decide
example : text (finite 12 2) = "1.2E+3".toList := by decide
example : ofText? " -1_0.5e+2".toList = some (finite (-105) 1) := by decide
example : ¬(finite 1 999999999).Below 60 ∧ (finite 1 (-999999999)).Below 60 := by decide

end Decimal

end Almanac
