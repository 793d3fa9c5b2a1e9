/-!
Years that begin on 1 March, counted from the year -4800. Their leap day is their last day, so
neither the start of a year nor the start of a month depends on whether the year itself is leap.
Main statements: `ofCount` splits every count of days into complete years and a day of the year,
and a 366th day occurs only in front of a leap year's March.
-/

namespace Almanac.MarchYear

def daysBefore (year : Int) : Int :=
  365 * year + year / 4 - year / 100 + year / 400

theorem daysBefore_cycles {fourCenturies centuries fourYears years : Int}
    (hc : 0 ≤ centuries ∧ centuries ≤ 3) (hf : 0 ≤ fourYears ∧ fourYears ≤ 24)
    (hy : 0 ≤ years ∧ years ≤ 3) :
    daysBefore (fourCenturies * 400 + centuries * 100 + fourYears * 4 + years) =
      146097 * fourCenturies + 36524 * centuries + 1461 * fourYears + 365 * years := by
  unfold daysBefore
  omega

/-- Days before a month, 0 for March up to 11 for February: 31 days and 30 days alternate, save
that July and August, and December and January, both have 31. -/
def daysBeforeMonth (month : Int) : Int :=
  (153 * month + 2) / 5

theorem daysBeforeMonth_eq (month : Int) : daysBeforeMonth month = (month + 4) * 153 / 5 - 122 := by
  unfold daysBeforeMonth
  omega

def monthOfDay (day : Int) : Int :=
  (5 * day + 308) / 153 - 2

theorem daysBeforeMonth_monthOfDay (day : Int) :
    daysBeforeMonth (monthOfDay day) ≤ day ∧ day < daysBeforeMonth (monthOfDay day + 1) := by
  unfold daysBeforeMonth monthOfDay
  omega

theorem monthOfDay_eq {month day : Int} (h : 0 ≤ day)
    (h' : daysBeforeMonth month + day < daysBeforeMonth (month + 1)) :
    monthOfDay (daysBeforeMonth month + day) = month := by
  unfold daysBeforeMonth monthOfDay at *
  omega

theorem monthOfDay_bounds {day : Int} (h : 0 ≤ day) (h' : day ≤ 365) :
    0 ≤ monthOfDay day ∧ monthOfDay day ≤ 11 := by
  unfold monthOfDay
  omega

structure Day where
  year : Int
  day : Int
deriving DecidableEq, Repr

/-- Takes off whole cycles of 400, 100, 4 and 1 years; the last day of a long cycle belongs to its
last short one. -/
def ofCount (count : Int) : Day :=
  let inFourCenturies := count % 146097
  let centuries := (inFourCenturies / 36524 + 1) * 3 / 4
  let inCentury := inFourCenturies - centuries * 36524
  let inFourYears := inCentury % 1461
  let years := (inFourYears / 365 + 1) * 3 / 4
  { year := count / 146097 * 400 + centuries * 100 + inCentury / 1461 * 4 + years
    day := inFourYears - years * 365 }

theorem ofCount_day_bounds (count : Int) : 0 ≤ (ofCount count).day ∧ (ofCount count).day ≤ 365 := by
  simp only [ofCount]
  omega

theorem daysBefore_ofCount (count : Int) :
    daysBefore (ofCount count).year + (ofCount count).day = count := by
  simp only [ofCount]
  rw [daysBefore_cycles (by omega) (by omega) (by omega)]
  omega

theorem ofCount_leap {count : Int} (h : (ofCount count).day = 365) :
    ((ofCount count).year + 1) % 4 = 0 ∧
      (((ofCount count).year + 1) % 100 ≠ 0 ∨ ((ofCount count).year + 1) % 400 = 0) := by
  revert h
  simp only [ofCount]
  generalize hp : count % 146097 = p
  generalize hq : p / 36524 = q
  generalize hc : (q + 1) * 3 / 4 = c
  generalize hf : (p - c * 36524) / 1461 = f
  generalize hr : (p - c * 36524) % 1461 = r
  generalize hy : (r / 365 + 1) * 3 / 4 = y
  generalize count / 146097 = a
  intro h
  have : y = 3 := by omega
  rcases (show (q = c ∧ c ≤ 3) ∨ (q = 4 ∧ c = 3) by omega) with ⟨rfl, _⟩ | ⟨rfl, rfl⟩
  · have : f ≠ 24 := by omega
    have : 0 ≤ f ∧ f ≤ 24 := by omega
    omega
  · have : f = 24 := by omega
    omega

theorem daysBefore_succ (year : Int) :
    daysBefore (year + 1) = daysBefore year + 365 +
      if (year + 1) % 4 = 0 ∧ ((year + 1) % 100 ≠ 0 ∨ (year + 1) % 400 = 0) then 1 else 0 := by
  unfold daysBefore
  split <;> omega

theorem daysBefore_le {first second : Int} (h : first ≤ second) :
    daysBefore first ≤ daysBefore second := by
  unfold daysBefore
  omega

theorem ofCount_day_lt (count : Int) :
    (ofCount count).day <
      daysBefore ((ofCount count).year + 1) - daysBefore (ofCount count).year := by
  have bounds := ofCount_day_bounds count
  rw [daysBefore_succ]
  split
  · omega
  · next h =>
    have : (ofCount count).day ≠ 365 := fun last => h (ofCount_leap last)
    omega

theorem ofCount_eq {year day : Int} (h : 0 ≤ day)
    (h' : day < daysBefore (year + 1) - daysBefore year) :
    ofCount (daysBefore year + day) = ⟨year, day⟩ := by
  have sum := daysBefore_ofCount (daysBefore year + day)
  have bounds := ofCount_day_bounds (daysBefore year + day)
  have inside := ofCount_day_lt (daysBefore year + day)
  generalize ofCount (daysBefore year + day) = split at *
  have : split.year = year := by
    rcases Int.lt_trichotomy split.year year with before | same | after
    · have := @daysBefore_le (split.year + 1) year (by omega)
      omega
    · exact same
    · have := @daysBefore_le (year + 1) split.year (by omega)
      omega
  cases split
  simp_all

end Almanac.MarchYear
