import Almanac.IntervalText
import Almanac.Proofs.FractionDigits

/-! Interval text as an account of an amount: a sign, a number of the largest unit, two digits for
each smaller one, and digits behind a point. An amount that is split into units of which each fits
into the one before a whole number of times leaves less than a unit of the last, and less than its
limit to each field behind the first. As it has been rounded to a whole number of the last digit's
units before, the digits shown leave nothing out. Main statement: what the text of an interval shows
adds up to its magnitude, rounded half up to the unit that its range ends with. -/

namespace Almanac.Arithmetic

theorem roundHalfUp_eq_round (dividend : Int) {divisor : Int} (positive : 0 < divisor) :
    (roundHalfUp dividend divisor : ℚ) = round (dividend / divisor : ℚ) * divisor := by
  obtain ⟨quotient, multiple⟩ := dvd_roundHalfUp dividend divisor
  obtain ⟨above, below⟩ := @roundHalfUp_near dividend divisor positive
  have nearest : round (dividend / divisor : ℚ) = quotient := by
    have cast : (0 : ℚ) < divisor := by exact_mod_cast positive
    rw [multiple] at above below
    have above' : (2 * dividend - divisor : ℚ) < 2 * (divisor * quotient) := by exact_mod_cast above
    have below' : (2 * (divisor * quotient) : ℚ) ≤ 2 * dividend + divisor := by exact_mod_cast below
    rw [round_eq, Int.floor_eq_iff, div_add_div _ _ cast.ne' two_ne_zero,
      le_div_iff₀ (by positivity), div_lt_iff₀ (by positivity)]
    constructor <;> linarith
  rw [nearest, multiple]
  push_cast
  ring

theorem roundHalfUp_nonneg {dividend divisor : Int} (nonneg : 0 ≤ dividend)
    (positive : 0 < divisor) : 0 ≤ roundHalfUp dividend divisor := by
  have parts := Int.mul_ediv_add_emod dividend divisor
  have whole := Int.mul_nonneg positive.le (Int.ediv_nonneg nonneg positive.le)
  simp only [roundHalfUp]
  split <;> omega

end Almanac.Arithmetic

namespace Almanac.IntervalText
open Arithmetic Numeral

structure ShownField where
  unit : TimeUnit
  digits : Text

def ShownField.number (field : ShownField) : Int := Nat.ofDigitChars 10 field.digits 0

/-- What the text of an interval shows behind its sign. -/
structure Shown where
  leading : ShownField
  following : List ShownField
  /-- The digits behind a point; without any there is no point. -/
  fraction : Text

namespace Shown

def fields (shown : Shown) : List ShownField := shown.leading :: shown.following

/-- A month is set off by a hyphen, an hour by a space and any smaller unit by a colon. -/
def separator : TimeUnit → Char
  | .month => '-'
  | .hour => ' '
  | _ => ':'

def text (shown : Shown) : Text :=
  shown.leading.digits ++
    shown.following.flatMap (fun field => separator field.unit :: field.digits) ++
    if shown.fraction = [] then [] else '.' :: shown.fraction

def amount (size : TimeUnit → Int) (shown : Shown) : Int :=
  (shown.fields.map fun field => field.number * size field.unit).sum

/-- The fields are those of the units from the first one of a range to its last, in their order.
All but the leading one have two digits and a number that is valid for their unit. -/
structure Regular (shown : Shown) (order : List TimeUnit) (range : UnitRange) (places : Nat) :
    Prop where
  units : shown.fields.map ShownField.unit <:+: order
  first : (shown.fields.map ShownField.unit).head? = some range.start
  last : (shown.fields.map ShownField.unit).getLast? = some range.last
  digits : ∀ field ∈ shown.fields, field.digits ≠ [] ∧ ∀ c ∈ field.digits, c.isDigit
  following : ∀ field ∈ shown.following,
    field.digits.length = 2 ∧ field.unit.IsValidValue (.ofInt field.number)
  fraction : shown.fraction.length = places ∧ ∀ c ∈ shown.fraction, c.isDigit

def ofValues (leading : TimeUnit × Int) (following : List (TimeUnit × Int)) (fraction : Text) :
    Shown where
  leading := ⟨leading.1, decimal leading.2⟩
  following := following.map fun (unit, value) => ⟨unit, Numeral.number value 2⟩
  fraction := fraction

end Shown

def Fits (unit : TimeUnit) (value : Int) : Prop :=
  0 ≤ value ∧ ∃ limit ≤ 100, unit.limit? = some limit ∧ value < limit

theorem Fits.isValidValue {unit : TimeUnit} {value : Int} (h : Fits unit value) :
    unit.IsValidValue (.ofInt value) := by
  obtain ⟨nonneg, limit, -, limited, below⟩ := h
  refine ⟨fun negative => not_lt.2 nonneg (Decimal.below_ofInt.1 negative), fun bound same => ?_⟩
  cases limited.symm.trans same
  exact Decimal.below_ofInt.2 below

theorem ShownField.number_decimal {value : Int} (unit : TimeUnit) (h : 0 ≤ value) :
    (ShownField.mk unit (decimal value)).number = value := by
  rw [number, decimal_eq_zeroPadded, ofDigitChars_zeroPadded 0 h, Int.natAbs_of_nonneg h]

theorem ShownField.number_number {value : Int} (unit : TimeUnit) (h : 0 ≤ value) :
    (ShownField.mk unit (Numeral.number value 2)).number = value := by
  rw [number, number_of_nonneg 2 h, ofDigitChars_zeroPadded _ h, Int.natAbs_of_nonneg h]

theorem Fits.length_number {unit : TimeUnit} {value : Int} (h : Fits unit value) :
    (Numeral.number value 2).length = 2 := by
  obtain ⟨nonneg, limit, few, -, below⟩ := h
  have two : (2 : Int).toNat = 2 := rfl
  have count : digitCount value ≤ 2 := digitCount_le (by omega) (by decide)
  rw [number_of_nonneg 2 nonneg, length_zeroPadded _ nonneg, two, max_eq_left count]

namespace Shown
variable {leading : TimeUnit × Int} {following : List (TimeUnit × Int)} {fraction : Text}

theorem units_ofValues :
    (ofValues leading following fraction).fields.map ShownField.unit =
      (leading :: following).map Prod.fst := by
  simp [ofValues, fields]

theorem amount_ofValues (size : TimeUnit → Int) (nonneg : 0 ≤ leading.2)
    (fit : ∀ field ∈ following, Fits field.1 field.2) :
    (ofValues leading following fraction).amount size =
      ((leading :: following).map fun (unit, value) => value * size unit).sum := by
  have numbers : (following.map fun (unit, value) =>
      (ShownField.mk unit (Numeral.number value 2)).number * size unit) =
      following.map fun (unit, value) => value * size unit := by
    apply List.map_congr_left
    rintro ⟨unit, value⟩ member
    dsimp only
    rw [ShownField.number_number unit (fit _ member).1]
  rw [amount, fields, ofValues, List.map_cons, List.sum_cons, List.map_map,
    ShownField.number_decimal leading.1 nonneg, List.map_cons, List.sum_cons, ← numbers]
  rfl

theorem regular_ofValues {order : List TimeUnit} {range : UnitRange} {places : Nat}
    (units : (leading :: following).map Prod.fst <:+: order)
    (first : leading.1 = range.start)
    (last : ((leading :: following).map Prod.fst).getLast? = some range.last)
    (nonneg : 0 ≤ leading.2) (fit : ∀ field ∈ following, Fits field.1 field.2)
    (digits : fraction.length = places ∧ ∀ c ∈ fraction, c.isDigit) :
    (ofValues leading following fraction).Regular order range places where
  units := by rwa [units_ofValues]
  first := by rw [units_ofValues, List.map_cons, List.head?_cons, first]
  last := by rwa [units_ofValues]
  digits := by
    simp only [fields, ofValues, List.forall_mem_cons, List.forall_mem_map]
    constructor
    · rw [decimal_eq_zeroPadded]
      exact ⟨zeroPadded_ne_nil _ _, fun c => isDigit_of_mem_zeroPadded nonneg⟩
    · intro field member
      have nonneg := (fit field member).1
      rw [number_of_nonneg 2 nonneg]
      exact ⟨zeroPadded_ne_nil _ _, fun c => isDigit_of_mem_zeroPadded nonneg⟩
  following := by
    simp only [ofValues, List.forall_mem_map]
    intro field member
    have fits := fit field member
    rw [ShownField.number_number field.1 fits.1]
    exact ⟨fits.length_number, fits.isValidValue⟩
  fraction := digits

theorem separator_of_ne_month {unit : TimeUnit} (h : unit ≠ .month) :
    separator unit = if unit = .hour then ' ' else ':' := by
  cases unit with
  | month => exact absurd rfl h
  | _ => rfl

theorem text_ofValues (noMonth : ∀ field ∈ following, field.1 ≠ .month) :
    (ofValues leading following fraction).text = fieldsText (leading :: following) ++
      if fraction = [] then [] else '.' :: fraction := by
  have fields : (following.map fun (unit, value) =>
      ShownField.mk unit (Numeral.number value 2)).flatMap
        (fun field => separator field.unit :: field.digits) =
      following.flatMap fun (unit, value) => followingField unit value := by
    rw [List.flatMap_map]
    apply List.flatMap_congr
    rintro ⟨unit, value⟩ member
    rw [separator_of_ne_month (noMonth _ member)]
    rfl
  rw [text, ofValues, fields]
  rfl

end Shown

/-- A smaller unit, with at most two digits to its field, of which a larger one has as many as the
field's limit. -/
def Nests (larger smaller : TimeUnit) : Prop :=
  ∃ limit ≤ 100, smaller.limit? = some limit ∧ unitMillis larger = limit * unitMillis smaller

theorem unitMillis_pos (unit : TimeUnit) : 0 < unitMillis unit := by
  cases unit <;> decide

theorem Nests.dvd {larger smaller : TimeUnit} (h : Nests larger smaller) :
    unitMillis smaller ∣ unitMillis larger := by
  obtain ⟨limit, -, -, size⟩ := h
  exact ⟨limit, size.trans (mul_comm _ _)⟩

theorem Nests.fits {larger smaller : TimeUnit} (h : Nests larger smaller) {amount : Int}
    (low : 0 ≤ amount) (high : amount < unitMillis larger) :
    Fits smaller (amount / unitMillis smaller) := by
  obtain ⟨limit, few, limited, size⟩ := h
  have positive := unitMillis_pos smaller
  rw [size] at high
  exact ⟨Int.ediv_nonneg low positive.le, limit, few, limited, Int.ediv_lt_of_lt_mul positive high⟩

theorem map_fst_split (units : List TimeUnit) (amount : Int) :
    (split units amount).values.map Prod.fst = units := by
  induction units generalizing amount with
  | nil => rfl
  | cons unit smaller ih => rw [split, List.map_cons, ih]

theorem fits_of_mem_split {larger : TimeUnit} {smaller : List TimeUnit}
    (chain : (larger :: smaller).IsChain Nests) {amount : Int} (low : 0 ≤ amount)
    (high : amount < unitMillis larger) :
    ∀ field ∈ (split smaller amount).values, Fits field.1 field.2 := by
  -- what is left behind a field is less than its unit: the bound goes on from unit to unit
  induction smaller generalizing larger amount with
  | nil => exact List.forall_mem_nil _
  | cons unit smaller ih =>
    obtain ⟨nests, chain⟩ := List.isChain_cons_cons.1 chain
    have positive := unitMillis_pos unit
    rw [split, List.forall_mem_cons]
    exact ⟨nests.fits low high,
      ih chain (Int.emod_nonneg _ positive.ne') (Int.emod_lt_of_pos _ positive)⟩

section
variable {first last : TimeUnit} {smaller : List TimeUnit}
  (chain : (first :: smaller).IsChain Nests) (isLast : (first :: smaller).getLast? = some last)
include chain isLast

theorem unitMillis_last_dvd : unitMillis last ∣ unitMillis first := by
  induction smaller generalizing first with
  | nil =>
    cases isLast
    exact dvd_rfl
  | cons unit smaller ih =>
    obtain ⟨nests, chain⟩ := List.isChain_cons_cons.1 chain
    rw [List.getLast?_cons_cons] at isLast
    exact (ih chain isLast).trans nests.dvd

theorem rest_split (amount : Int) :
    (split (first :: smaller) amount).rest = amount % unitMillis last := by
  induction smaller generalizing first amount with
  | nil =>
    cases isLast
    rfl
  | cons unit smaller ih =>
    -- the remainder by the first unit is the same amount to the last one, which divides the first
    have divides := unitMillis_last_dvd chain isLast
    rw [List.getLast?_cons_cons] at isLast
    rw [split, ih (List.isChain_cons_cons.1 chain).2 isLast, Int.emod_emod_of_dvd _ divides]

end

theorem total_eq_sum (values : List (TimeUnit × Int)) :
    total values = (values.map fun (unit, value) => value * unitMillis unit).sum := by
  induction values with
  | nil => rfl
  | cons field values ih =>
    rw [List.map_cons, List.sum_cons, ← ih]
    rfl

def dayTimeOrder : List TimeUnit := [.day, .hour, .minute, .second]

theorem isChain_of_within {units : List TimeUnit} (within : units <:+: dayTimeOrder) :
    units.IsChain Nests := by
  refine List.IsChain.infix ?_ within
  simp only [dayTimeOrder, List.isChain_cons_cons, List.isChain_singleton, and_true]
  exact ⟨⟨24, by decide⟩, ⟨60, by decide⟩, ⟨60, by decide⟩⟩

theorem exists_dayTimeUnits {range : UnitRange} (h : range.start ∈ dayTimeOrder) :
    ∃ smaller, dayTimeUnits? range = some (range.start :: smaller) ∧
      range.start :: smaller <:+: dayTimeOrder ∧
      (range.start :: smaller).getLast? = some range.last := by
  cases range with
  | day | dayToHour | dayToMinute | dayToSecond | hour | hourToMinute | hourToSecond | minute
  | minuteToSecond | second => exact ⟨_, rfl, by decide, by decide⟩
  | _ => exact absurd h (by decide)

/-- The size of the unit that an interval is rounded to: that of the last unit of its range, or of
the last digit behind the point of a second, but no less than a millisecond. -/
def grain (range : UnitRange) (scale : Int) : ℚ :=
  if range.last = .second then max 1 (10 ^ (3 - scale)) else unitMillis range.last

theorem roundingUnit_pos (range : UnitRange) (scale : Int) : 0 < roundingUnit range scale := by
  unfold roundingUnit
  split
  · rw [power_eq_pow]
    exact Int.pow_pos (by decide)
  · exact unitMillis_pos _

theorem roundingUnit_eq_grain (range : UnitRange) (scale : Int) :
    (roundingUnit range scale : ℚ) = grain range scale := by
  unfold roundingUnit grain
  split
  · rw [power_eq_pow]
    change (((10 : ℤ) ^ (3 - scale).toNat : ℤ) : ℚ) = _
    rw [Int.cast_pow, Int.cast_ofNat]
    rcases le_or_gt 0 (3 - scale) with whole | fine
    · have exponent : 3 - scale = (3 - scale).toNat := (Int.toNat_of_nonneg whole).symm
      rw [max_eq_right (one_le_zpow₀ (by norm_num) whole)]
      conv_rhs => rw [exponent, zpow_natCast]
    · rw [Int.toNat_of_nonpos fine.le, pow_zero,
        max_eq_left (zpow_le_one_of_nonpos₀ (by norm_num) fine.le)]
  · rfl

theorem rest_of_rounded {range : UnitRange} {scale amount : Int}
    (rounded : roundingUnit range scale ∣ amount) :
    amount % unitMillis range.last < 1000 ∧
      10 ^ (3 - places range scale) ∣ amount % unitMillis range.last := by
  by_cases seconds : range.last = .second
  · -- The grain of a negative scale is coarser than a second: the fraction is empty then.
    have divides : (10 : ℤ) ^ (3 - scale.toNat) ∣ roundingUnit range scale := by
      rw [roundingUnit, if_pos seconds, power_eq_pow]
      exact pow_dvd_pow 10 (by omega)
    have second : (10 : ℤ) ^ (3 - scale.toNat) ∣ 1000 := pow_dvd_pow 10 (Nat.sub_le 3 _)
    rw [places, if_pos seconds, seconds]
    change amount % 1000 < 1000 ∧ _ ∣ amount % 1000
    refine ⟨Int.emod_lt_of_pos _ (by decide), Int.dvd_of_emod_eq_zero ?_⟩
    rw [Int.emod_emod_of_dvd _ second, Int.emod_eq_zero_of_dvd (divides.trans rounded)]
  · rw [roundingUnit, if_neg seconds] at rounded
    rw [Int.emod_eq_zero_of_dvd rounded]
    exact ⟨by decide, dvd_zero _⟩

def Shown.ofAmount (first : TimeUnit) (smaller : List TimeUnit) (amount : Int) (places : Nat) :
    Shown :=
  let fields := split smaller (amount % unitMillis first)
  .ofValues (first, amount / unitMillis first) fields.values
    (Literal.fractionText fields.rest places)

section
variable {range : UnitRange} {smaller : List TimeUnit} {amount scale : Int}
  (within : range.start :: smaller <:+: dayTimeOrder)
  (isLast : (range.start :: smaller).getLast? = some range.last)
  (nonneg : 0 ≤ amount) (rounded : roundingUnit range scale ∣ amount)
include within

theorem fits_of_mem_ofAmount :
    ∀ field ∈ (split smaller (amount % unitMillis range.start)).values, Fits field.1 field.2 := by
  have positive := unitMillis_pos range.start
  exact fits_of_mem_split (isChain_of_within within) (Int.emod_nonneg _ positive.ne')
    (Int.emod_lt_of_pos _ positive)

include isLast nonneg

theorem regular_ofAmount (places : Nat) :
    (Shown.ofAmount range.start smaller amount places).Regular dayTimeOrder range places := by
  have units := map_fst_split (range.start :: smaller) amount
  apply Shown.regular_ofValues
  · exact units.symm ▸ within
  · rfl
  · exact units.symm ▸ isLast
  · exact Int.ediv_nonneg nonneg (unitMillis_pos _).le
  · exact fits_of_mem_ofAmount within
  · refine ⟨Literal.length_fractionText _ _, fun c => Literal.isDigit_of_mem_fractionText ?_⟩
    change 0 ≤ (split (range.start :: smaller) amount).rest
    rw [rest_split (isChain_of_within within) isLast]
    exact Int.emod_nonneg _ (unitMillis_pos _).ne'

include rounded

theorem amount_ofAmount :
    (Shown.ofAmount range.start smaller amount (places range scale)).amount unitMillis +
      1000 * fractionValue
        (Shown.ofAmount range.start smaller amount (places range scale)).fraction = amount := by
  have chain := isChain_of_within within
  have whole := total_split (range.start :: smaller) amount
  have rest := rest_split chain isLast amount
  obtain ⟨below, divides⟩ := rest_of_rounded rounded
  have fraction : 1000 * fractionValue
      (Shown.ofAmount range.start smaller amount (places range scale)).fraction =
      (split (range.start :: smaller) amount).rest := by
    rw [← rest] at below divides
    refine Literal.fractionValue_fractionText ?_ below divides
    rw [rest]
    exact Int.emod_nonneg _ (unitMillis_pos _).ne'
  rw [total_eq_sum] at whole
  rw [fraction, Shown.ofAmount, Shown.amount_ofValues unitMillis
    (Int.ediv_nonneg nonneg (unitMillis_pos _).le) (fits_of_mem_ofAmount within)]
  exact_mod_cast whole

end

theorem ne_month_of_mem_split {smaller : List TimeUnit} (within : ∀ unit ∈ smaller,
    unit ∈ dayTimeOrder) (amount : Int) :
    ∀ field ∈ (split smaller amount).values, field.1 ≠ .month := by
  intro field member isMonth
  have unit : field.1 ∈ smaller := by
    rw [← map_fst_split smaller amount]
    exact List.mem_map_of_mem member
  exact absurd (isMonth ▸ within _ unit) (by decide)

theorem signText_eq (amount : Int) : signText amount = [if 0 ≤ amount then '+' else '-'] := by
  unfold signText
  split <;> rfl

theorem point_fractionText (rest : Int) (places : Nat) :
    (if Literal.fractionText rest places = [] then [] else '.' :: Literal.fractionText rest places) =
      fractionOf rest places := by
  have empty : Literal.fractionText rest places = [] ↔ places = 0 := by
    rw [← List.length_eq_zero_iff, Literal.length_fractionText]
  simp only [fractionOf, empty]

theorem writeDayTime_eq_written {range : UnitRange} {smaller : List TimeUnit}
    (table : dayTimeUnits? range = some (range.start :: smaller))
    (within : range.start :: smaller <:+: dayTimeOrder) (millis scale : Int) :
    writeDayTime millis range scale =
      let amount := roundHalfUp |millis| (roundingUnit range scale)
      written millis (amount / unitMillis range.start) (places range scale)
        (Shown.ofAmount range.start smaller amount (places range scale)).text := by
  have units : ∀ unit ∈ smaller, unit ∈ dayTimeOrder := fun unit member =>
    within.subset (List.mem_cons_of_mem _ member)
  rw [writeDayTime, table]
  dsimp only
  rw [Shown.ofAmount, Shown.text_ofValues (ne_month_of_mem_split units _), point_fractionText,
    Int.natCast_natAbs]
  rfl

/-- An amount, rounded already, is written with less than `10 ^ maxDigits` of its leading unit, and a
fraction that is shorter than a text can be. -/
structure Writable (rounded unit : ℚ) (places : ℕ) : Prop where
  leading : rounded < 10 ^ maxDigits * unit
  fraction : places < maxLength

/-- What an amount that cannot be written is refused for; digits are counted first. -/
def refusal (rounded unit : ℚ) : WriteFault :=
  if rounded < 10 ^ maxDigits * unit then .noLength else .digitLimit

theorem digitCount_div_le_iff {rounded unit : Int} (nonneg : 0 ≤ rounded) (positive : 0 < unit) :
    digitCount (rounded / unit) ≤ maxDigits ↔ (rounded : ℚ) < 10 ^ maxDigits * unit := by
  rw [digitCount_le_maxDigits_iff, abs_of_nonneg (Int.ediv_nonneg nonneg positive.le),
    Int.ediv_lt_iff_lt_mul positive]
  exact_mod_cast Iff.rfl

theorem written_outcome {rounded unit : Int} (nonneg : 0 ≤ rounded) (positive : 0 < unit)
    (amount : Int) (places : Nat) (fields : Text) :
    (Writable rounded unit places →
      written amount (rounded / unit) places fields =
        .ok ((if 0 ≤ amount then '+' else '-') :: fields)) ∧
    (¬Writable rounded unit places →
      written amount (rounded / unit) places fields =
        .error (.unwritable (refusal rounded unit))) := by
  have count := digitCount_div_le_iff nonneg positive
  constructor
  · rintro ⟨leading, fraction⟩
    have answered : limited (rounded / unit) places (signText amount ++ fields) =
        .ok (signText amount ++ fields) :=
      limited_eq_ok_iff.2 ⟨count.2 leading, Int.ofNat_lt.2 fraction, rfl⟩
    rw [written, answered, signText_eq]
    rfl
  · intro unwritable
    have refused : limited (rounded / unit) places (signText amount ++ fields) =
        .error (refusal rounded unit) := by
      by_cases leading : (rounded : ℚ) < 10 ^ maxDigits * unit
      · have wide := not_lt.1 fun fraction => unwritable ⟨leading, fraction⟩
        rw [refusal, if_pos leading, limited_eq_noLength_iff]
        exact ⟨count.2 leading, Int.ofNat_le.2 wide⟩
      · rw [refusal, if_neg leading, limited_eq_digitLimit_iff]
        exact not_le.1 fun short => leading (count.1 short)
    rw [written, refused]
    rfl

def roundedMillis (range : UnitRange) (scale millis : Int) : ℚ :=
  round (|millis| / grain range scale) * grain range scale

/-- The text shows a sign and, in fields and a fraction of a second, the milliseconds rounded half
up to the grain. -/
def ShowsMillis (range : UnitRange) (scale millis : Int) (text : Text) : Prop :=
  ∃ shown : Shown, text = (if 0 ≤ millis then '+' else '-') :: shown.text ∧
    shown.Regular dayTimeOrder range (places range scale) ∧
    shown.amount unitMillis + 1000 * fractionValue shown.fraction = roundedMillis range scale millis

theorem writeDayTime_outcome {range : UnitRange} (h : range.start ∈ dayTimeOrder)
    (millis scale : Int) :
    (Writable (roundedMillis range scale millis) (unitMillis range.start) (places range scale) →
      ∃ text, writeDayTime millis range scale = .ok text ∧ ShowsMillis range scale millis text) ∧
    (¬Writable (roundedMillis range scale millis) (unitMillis range.start) (places range scale) →
      writeDayTime millis range scale = .error (.unwritable
        (refusal (roundedMillis range scale millis) (unitMillis range.start)))) := by
  obtain ⟨smaller, table, within, isLast⟩ := exists_dayTimeUnits h
  have positive := roundingUnit_pos range scale
  have nonneg := roundHalfUp_nonneg (abs_nonneg millis) positive
  have rounded : (roundHalfUp |millis| (roundingUnit range scale) : ℚ) =
      roundedMillis range scale millis := by
    rw [roundHalfUp_eq_round _ positive, roundingUnit_eq_grain, roundedMillis]
  obtain ⟨shown, refused⟩ := written_outcome nonneg (unitMillis_pos range.start) millis
    (places range scale) (Shown.ofAmount range.start smaller _ (places range scale)).text
  rw [rounded] at shown refused
  rw [writeDayTime_eq_written table within millis scale]
  refine ⟨fun writable => ⟨_, shown writable, _, rfl,
    regular_ofAmount within isLast nonneg _, ?_⟩, refused⟩
  rw [amount_ofAmount within isLast nonneg (dvd_roundHalfUp _ _), rounded]

def yearMonthOrder : List TimeUnit := [.year, .month]

def unitMonths : TimeUnit → Int
  | .year => 12
  | _ => 1

/-- The magnitude of an interval of months, rounded half up to years if its range is that of years
alone. -/
def roundedMonths (range : UnitRange) (months : Int) : ℚ :=
  if range = .year then round (|months| / 12 : ℚ) * 12 else |months|

def ShowsMonths (range : UnitRange) (months : Int) (text : Text) : Prop :=
  ∃ shown : Shown, text = (if 0 ≤ months then '+' else '-') :: shown.text ∧
    shown.Regular yearMonthOrder range 0 ∧
    shown.amount unitMonths = roundedMonths range months

theorem fits_month (months : Int) : Fits .month (months % 12) :=
  ⟨Int.emod_nonneg _ (by decide), 12, by decide, rfl, Int.emod_lt_of_pos _ (by decide)⟩

theorem unitMonths_pos (unit : TimeUnit) : 0 < unitMonths unit := by
  cases unit <;> decide

theorem months_outcome {range : UnitRange} {months rounded : Int} (nonneg : 0 ≤ rounded)
    (value : (rounded : ℚ) = roundedMonths range months) (following : List (TimeUnit × Int))
    (made : writeYearMonth months range = written months (rounded / unitMonths range.start) 0
      (Shown.ofValues (range.start, rounded / unitMonths range.start) following []).text)
    (units : range.start :: following.map Prod.fst <:+: yearMonthOrder)
    (last : (range.start :: following.map Prod.fst).getLast? = some range.last)
    (fit : ∀ field ∈ following, Fits field.1 field.2)
    (sum : rounded / unitMonths range.start * unitMonths range.start +
      (following.map fun (unit, value) => value * unitMonths unit).sum = rounded) :
    (Writable (roundedMonths range months) (unitMonths range.start) 0 →
      ∃ text, writeYearMonth months range = .ok text ∧ ShowsMonths range months text) ∧
    (¬Writable (roundedMonths range months) (unitMonths range.start) 0 →
      writeYearMonth months range = .error (.unwritable .digitLimit)) := by
  have positive := unitMonths_pos range.start
  have leading : 0 ≤ rounded / unitMonths range.start := Int.ediv_nonneg nonneg positive.le
  obtain ⟨shown, refused⟩ := written_outcome nonneg positive months 0
    (Shown.ofValues (range.start, rounded / unitMonths range.start) following []).text
  rw [value] at shown refused
  rw [made]
  refine ⟨fun writable => ⟨_, shown writable, _, rfl, ?_, ?_⟩, fun unwritable => ?_⟩
  · exact Shown.regular_ofValues units rfl last leading fit ⟨rfl, List.forall_mem_nil _⟩
  · rw [Shown.amount_ofValues unitMonths leading fit, List.map_cons, List.sum_cons, sum, value]
  · have long := fun short => unwritable ⟨short, by decide⟩
    rw [refused unwritable, refusal, if_neg long]

theorem writeYearMonth_outcome {range : UnitRange} (h : range.start ∈ yearMonthOrder)
    (months : Int) :
    (Writable (roundedMonths range months) (unitMonths range.start) 0 →
      ∃ text, writeYearMonth months range = .ok text ∧ ShowsMonths range months text) ∧
    (¬Writable (roundedMonths range months) (unitMonths range.start) 0 →
      writeYearMonth months range = .error (.unwritable .digitLimit)) := by
  have nonneg := abs_nonneg months
  have noFields : ∀ field ∈ ([] : List (TimeUnit × Int)), Fits field.1 field.2 :=
    List.forall_mem_nil _
  cases range with
  | year =>
    have nearest : (roundHalfUp |months| 12 : ℚ) = roundedMonths .year months := by
      rw [roundedMonths, if_pos rfl]
      exact_mod_cast roundHalfUp_eq_round |months| (show (0 : Int) < 12 by decide)
    refine months_outcome (roundHalfUp_nonneg nonneg (by decide)) nearest [] ?_
      (show [TimeUnit.year] <:+: _ by decide) rfl noFields ?_
    · simp [writeYearMonth, Shown.ofValues, Shown.text, unitMonths, UnitRange.start]
    · change roundHalfUp |months| 12 / 12 * 12 + 0 = _
      rw [add_zero, Int.ediv_mul_cancel (dvd_roundHalfUp _ _)]
  | yearToMonth =>
    refine months_outcome nonneg (by simp [roundedMonths]) [(.month, |months| % 12)] ?_
      (show [TimeUnit.year, .month] <:+: _ by decide) rfl
      (List.forall_mem_singleton.2 (fits_month _)) ?_
    · simp [writeYearMonth, Shown.ofValues, Shown.text, Shown.separator, unitMonths,
        UnitRange.start]
    · change |months| / 12 * 12 + (|months| % 12 * 1 + 0) = |months|
      omega
  | month =>
    refine months_outcome nonneg (by simp [roundedMonths]) [] ?_
      (show [TimeUnit.month] <:+: _ by decide) rfl noFields ?_
    · simp [writeYearMonth, Shown.ofValues, Shown.text, unitMonths, UnitRange.start]
    · change |months| / 1 * 1 + 0 = |months|
      omega
  | _ => exact absurd h (by decide)

/-- An interval of days to seconds, or of years and months, is written if it has less than
`10 ^ maxDigits` of the unit its range begins with and a fraction shorter than a text can be. Its
text shows its magnitude, rounded half up to what the range and the scale keep. Any other interval
is refused, for its digits if they are too many, and for its length else. -/
theorem intervals_show_rounded_amounts :
    (∀ range, UnitRange.start range ∈ dayTimeOrder → ∀ millis scale,
      (Writable (roundedMillis range scale millis) (unitMillis range.start) (places range scale) →
        ∃ text, writeDayTime millis range scale = .ok text ∧
          ShowsMillis range scale millis text) ∧
      (¬Writable (roundedMillis range scale millis) (unitMillis range.start)
          (places range scale) →
        writeDayTime millis range scale = .error (.unwritable
          (refusal (roundedMillis range scale millis) (unitMillis range.start))))) ∧
    ∀ range, UnitRange.start range ∈ yearMonthOrder → ∀ months,
      (Writable (roundedMonths range months) (unitMonths range.start) 0 →
        ∃ text, writeYearMonth months range = .ok text ∧ ShowsMonths range months text) ∧
      (¬Writable (roundedMonths range months) (unitMonths range.start) 0 →
        writeYearMonth months range = .error (.unwritable .digitLimit)) :=
  ⟨fun _ => writeDayTime_outcome, fun _ => writeYearMonth_outcome⟩

theorem intervals_show_rounded_amounts_carried :
    UnitRange.dayToSecond.start ∈ dayTimeOrder ∧
      Writable (roundedMillis .dayToSecond 2 (-86399996)) (unitMillis UnitRange.dayToSecond.start)
        (places .dayToSecond 2) ∧
      writeDayTime (-86399996) .dayToSecond 2 = .ok "-1 00:00:00.00".toList ∧
      ShowsMillis .dayToSecond 2 (-86399996) "-1 00:00:00.00".toList ∧
      UnitRange.year.start ∈ yearMonthOrder ∧
      Writable (roundedMonths .year (-18)) (unitMonths UnitRange.year.start) 0 ∧
      writeYearMonth (-18) .year = .ok "-2".toList ∧ ShowsMonths .year (-18) "-2".toList := by
  have dayTime : UnitRange.dayToSecond.start ∈ dayTimeOrder := by decide
  have yearMonth : UnitRange.year.start ∈ yearMonthOrder := by decide
  have made : writeDayTime (-86399996) .dayToSecond 2 = .ok "-1 00:00:00.00".toList := by
    decide +kernel
  have made' : writeYearMonth (-18) .year = .ok "-2".toList := by decide
  obtain ⟨shown, refused⟩ := intervals_show_rounded_amounts.1 _ dayTime (-86399996) 2
  obtain ⟨shown', refused'⟩ := intervals_show_rounded_amounts.2 _ yearMonth (-18)
  -- what is not refused can be written
  have writable := not_not.1 fun unwritable => by
    cases made.symm.trans (refused unwritable)
  have writable' := not_not.1 fun unwritable => by
    cases made'.symm.trans (refused' unwritable)
  obtain ⟨text, same, shows⟩ := shown writable
  obtain ⟨text', same', shows'⟩ := shown' writable'
  cases same.symm.trans made
  cases same'.symm.trans made'
  exact ⟨dayTime, writable, made, shows, yearMonth, writable', made', shows'⟩

/-- Not every interval has a text: the number of its leading field may have too many digits, and
more digits may be asked for behind the point than a text can hold. -/
theorem not_all_intervals_written :
    (UnitRange.month.start ∈ yearMonthOrder ∧
      writeYearMonth (10 ^ 4300) .month = .error (.unwritable .digitLimit)) ∧
    (UnitRange.second.start ∈ dayTimeOrder ∧
      writeDayTime 0 .second 9223372036854775808 = .error (.unwritable .noLength)) ∧
    ¬((∀ range, UnitRange.start range ∈ dayTimeOrder → ∀ millis scale,
        ∃ text, writeDayTime millis range scale = .ok text ∧
          ShowsMillis range scale millis text) ∧
      ∀ range, UnitRange.start range ∈ yearMonthOrder → ∀ months,
        ∃ text, writeYearMonth months range = .ok text ∧ ShowsMonths range months text) := by
  have yearMonth : UnitRange.month.start ∈ yearMonthOrder := by decide
  have long : maxDigits < digitCount |10 ^ 4300| := by
    rw [← not_le, digitCount_le_maxDigits_iff, abs_abs, not_lt]
    exact le_abs_self _
  have refused : writeYearMonth (10 ^ 4300) .month = .error (.unwritable .digitLimit) := by
    rw [writeYearMonth, Int.natCast_natAbs, written, limited_eq_digitLimit_iff.2 long]
    rfl
  have refused' : writeDayTime 0 .second 9223372036854775808 = .error (.unwritable .noLength) := by
    decide +kernel
  refine ⟨⟨yearMonth, refused⟩, ⟨by decide, refused'⟩, fun ⟨_, all⟩ => ?_⟩
  obtain ⟨text, made, -⟩ := all .month yearMonth (10 ^ 4300)
  cases refused.symm.trans made

end Almanac.IntervalText
