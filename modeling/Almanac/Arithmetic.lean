/-!
Whole-number arithmetic of the library. Every quotient of time amounts rounds towards negative
infinity, so that a moment before the epoch falls into the day or month it belongs to. For a
positive literal divisor that is the `/` and `%` of `Int`; for a divisor of any sign, zero
included, it is `floorDiv?` and `floorMod?`. Main statements: `floorMod?` is the remainder with the
sign of the divisor, `roundHalfUp` answers a multiple at most half a divisor away, and `power` is
the power for every exponent that is not negative.
-/

namespace Almanac.Arithmetic

/-- The quotient rounded towards negative infinity; none for divisor zero. -/
def floorDiv? (dividend divisor : Int) : Option Int :=
  if divisor = 0 then none else some (dividend.fdiv divisor)

def floorMod? (dividend divisor : Int) : Option Int :=
  (floorDiv? dividend divisor).map fun quotient => dividend - quotient * divisor

theorem floorDiv?_eq_none_iff {dividend divisor : Int} :
    floorDiv? dividend divisor = none ↔ divisor = 0 := by
  simp [floorDiv?]

theorem floorMod?_eq {dividend divisor : Int} (h : divisor ≠ 0) :
    floorMod? dividend divisor = some (dividend.fmod divisor) := by
  have := Int.mul_fdiv_add_fmod dividend divisor
  have := Int.mul_comm divisor (dividend.fdiv divisor)
  simp only [floorMod?, floorDiv?, h, if_false, Option.map_some, Option.some.injEq]
  omega

/-- The multiple of the divisor nearest to the dividend; a half goes up. -/
def roundHalfUp (dividend divisor : Int) : Int :=
  let remainder := dividend % divisor
  if divisor ≤ 2 * remainder then dividend - remainder + divisor else dividend - remainder

theorem roundHalfUp_one (dividend : Int) : roundHalfUp dividend 1 = dividend := by
  simp [roundHalfUp]

theorem dvd_roundHalfUp (dividend divisor : Int) : divisor ∣ roundHalfUp dividend divisor := by
  have h : divisor ∣ dividend - dividend % divisor := Int.dvd_self_sub_emod
  simp only [roundHalfUp]
  split
  · exact Int.dvd_add h (Int.dvd_refl divisor)
  · exact h

theorem roundHalfUp_near {dividend divisor : Int} (h : 0 < divisor) :
    2 * dividend - divisor < 2 * roundHalfUp dividend divisor ∧
      2 * roundHalfUp dividend divisor ≤ 2 * dividend + divisor := by
  have := Int.emod_nonneg dividend (Int.ne_of_gt h)
  have := Int.emod_lt_of_pos dividend h
  simp only [roundHalfUp]
  split <;> omega

def powerBySquares (base : Int) (exponent : Nat) : Int :=
  if exponent = 0 then 1
  else
    let half := powerBySquares (base * base) (exponent / 2)
    if exponent % 2 = 0 then half else base * half
termination_by exponent
decreasing_by omega

theorem powerBySquares_eq_pow (base : Int) (exponent : Nat) :
    powerBySquares base exponent = base.pow exponent := by
  change _ = base ^ exponent
  induction exponent using Nat.strongRecOn generalizing base with
  | ind exponent ih =>
    unfold powerBySquares
    split
    · next h => simp [h]
    · next h =>
      have square : base * base = base ^ 2 := by simp [Int.pow_succ]
      simp only [ih (exponent / 2) (by omega), square, ← Int.pow_mul]
      split
      · congr 1
        omega
      · rw [Int.mul_comm, ← Int.pow_succ]
        congr 1
        omega

/-- The base to the exponent; every exponent that is not positive answers 1. -/
def power (base exponent : Int) : Int :=
  powerBySquares base exponent.toNat

theorem power_eq_pow (base exponent : Int) : power base exponent = base.pow exponent.toNat :=
  powerBySquares_eq_pow base exponent.toNat

theorem power_of_nonpos {exponent : Int} (base : Int) (h : exponent ≤ 0) :
    power base exponent = 1 := by
  rw [power_eq_pow, Int.toNat_of_nonpos h]
  exact Int.pow_zero base

end Almanac.Arithmetic
