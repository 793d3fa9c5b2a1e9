import Mathlib
import Almanac.Proofs.DaySuccession
import Almanac.Proofs.LiteralReadback

/-! Written dates and timestamps in the order of texts, which compares characters from left to
right. Texts of one length are compared piece by piece, and pieces of digits in the order of their
numbers, so that a text of padded fields is compared as the fields are, the first one first. Main
statement: in the years 0..9999 all texts of one precision have one length, and their order is the
order of time as far as the precision goes. -/

namespace Almanac.Text

theorem append_lt_append_iff {first second : Text} (same : first.length = second.length)
    (rest rest' : Text) :
    first ++ rest < second ++ rest' ↔ first < second ∨ first = second ∧ rest < rest' := by
  induction first generalizing second with
  | nil =>
    obtain rfl := List.length_eq_zero_iff.1 same.symm
    simp
  | cons c first ih =>
    obtain ⟨d, second, rfl⟩ := List.exists_cons_of_length_eq_add_one same.symm
    have tail := ih (Nat.succ.inj same)
    simp only [List.cons_append, List.cons_lt_cons_iff, tail, List.cons.injEq]
    tauto

/-- Two texts of one length that stand in the order of two values. -/
structure OrderedAs {α : Type} [LT α] (first second : Text) (value value' : α) : Prop where
  length_eq : first.length = second.length
  lt_iff : first < second ↔ value < value'
  eq_iff : first = second ↔ value = value'

namespace OrderedAs

section
variable {α β : Type} [LT α] [LT β] {first second rest rest' : Text} {value value' : α}

theorem cons (c : Char) (h : OrderedAs first second value value') :
    OrderedAs (c :: first) (c :: second) value value' where
  length_eq := by rw [List.length_cons, List.length_cons, h.length_eq]
  lt_iff := by rw [List.cons_lt_cons_self, h.lt_iff]
  eq_iff := by rw [List.cons_inj_right, h.eq_iff]

theorem append (h : OrderedAs first second value value') {next next' : β}
    (h' : OrderedAs rest rest' next next') :
    OrderedAs (first ++ rest) (second ++ rest') (toLex (value, next)) (toLex (value', next')) where
  length_eq := by rw [List.length_append, List.length_append, h.length_eq, h'.length_eq]
  lt_iff := by
    rw [append_lt_append_iff h.length_eq, Prod.Lex.toLex_lt_toLex, h.lt_iff, h.eq_iff, h'.lt_iff]
  eq_iff := by
    have pieces : first ++ rest = second ++ rest' ↔ first = second ∧ rest = rest' :=
      ⟨fun equal => List.append_inj equal h.length_eq, fun ⟨left, right⟩ => by rw [left, right]⟩
    rw [pieces, h.eq_iff, h'.eq_iff, toLex_inj, Prod.mk.injEq]

theorem of_lt_iff {γ : Type} [LinearOrder γ] {value value' : γ}
    (same : first.length = second.length) (lt : first < second ↔ value < value')
    (gt : second < first ↔ value' < value) : OrderedAs first second value value' where
  length_eq := same
  lt_iff := lt
  eq_iff := by
    rw [← not_iff_not, ← ne_eq, ne_iff_lt_or_gt, lt, gt, ← ne_iff_lt_or_gt]

theorem congr (h : OrderedAs first second value value') {other other' : β}
    (lt : value < value' ↔ other < other') (eq : value = value' ↔ other = other') :
    OrderedAs first second other other' :=
  ⟨h.length_eq, h.lt_iff.trans lt, h.eq_iff.trans eq⟩

end

end OrderedAs

end Almanac.Text

namespace Almanac.Numeral

theorem mul_add_lt_mul_add_iff {base m n rest rest' : Nat} (h : rest < base) (h' : rest' < base) :
    base * m + rest < base * n + rest' ↔ m < n ∨ m = n ∧ rest < rest' := by
  rcases Nat.lt_trichotomy m n with less | rfl | greater
  · have step : base * (m + 1) ≤ base * n := Nat.mul_le_mul_left base less
    rw [Nat.mul_succ] at step
    exact iff_of_true (by omega) (.inl less)
  · omega
  · have step : base * (n + 1) ≤ base * m := Nat.mul_le_mul_left base greater
    rw [Nat.mul_succ] at step
    exact iff_of_false (by omega) (by omega)

theorem digit_order {c d : Char} (h : c.isDigit) (h' : d.isDigit) :
    (c < d ↔ c.toNat - '0'.toNat < d.toNat - '0'.toNat) ∧
      (c = d ↔ c.toNat - '0'.toNat = d.toNat - '0'.toNat) := by
  have low := (toNat_bounds_of_isDigit h).1
  have low' := (toNat_bounds_of_isDigit h').1
  have zero : '0'.toNat = 48 := rfl
  rw [Char.lt_def, UInt32.lt_iff_toNat_lt, Char.toNat_val, Char.toNat_val, ← Char.toNat_inj, zero]
  omega

theorem digits_lt_iff {first second : Text} (h : ∀ c ∈ first, c.isDigit)
    (h' : ∀ c ∈ second, c.isDigit) (same : first.length = second.length) :
    first < second ↔ Nat.ofDigitChars 10 first 0 < Nat.ofDigitChars 10 second 0 := by
  induction first generalizing second with
  | nil =>
    obtain rfl := List.length_eq_zero_iff.1 same.symm
    simp
  | cons c first ih =>
    obtain ⟨d, second, rfl⟩ := List.exists_cons_of_length_eq_add_one same.symm
    simp only [List.mem_cons, forall_eq_or_imp] at h h'
    have tails := Nat.succ.inj same
    have below := ofDigitChars_lt h'.2
    rw [← tails] at below
    obtain ⟨less, equal⟩ := digit_order h.1 h'.1
    rw [List.cons_lt_cons_iff, ofDigitChars_cons_zero, ofDigitChars_cons_zero, ← tails,
      mul_add_lt_mul_add_iff (ofDigitChars_lt h.2) below, ← less, ← equal, ih h.2 h'.2 tails]

theorem orderedAs_digits {first second : Text} (h : ∀ c ∈ first, c.isDigit)
    (h' : ∀ c ∈ second, c.isDigit) (same : first.length = second.length) :
    Text.OrderedAs first second (Nat.ofDigitChars 10 first 0) (Nat.ofDigitChars 10 second 0) :=
  .of_lt_iff same (digits_lt_iff h h' same) (digits_lt_iff h' h same.symm)

theorem orderedAs_zeroPadded {m n : Int} {width : Nat} (h : InWidth width m) (h' : InWidth width n)
    (positive : 0 < width) : Text.OrderedAs (zeroPadded width m) (zeroPadded width n) m n := by
  have same : (zeroPadded width m).length = (zeroPadded width n).length := by
    rw [length_zeroPadded_of_inWidth h positive, length_zeroPadded_of_inWidth h' positive]
  have low := h.1
  have low' := h'.1
  have order := orderedAs_digits (fun c => isDigit_of_mem_zeroPadded low)
    (fun c => isDigit_of_mem_zeroPadded low') same
  rw [ofDigitChars_zeroPadded width low, ofDigitChars_zeroPadded width low'] at order
  exact order.congr (by omega) (by omega)

end Almanac.Numeral

namespace Almanac.Literal
open Numeral

def FourDigitYear (unixDate : Int) : Prop :=
  0 ≤ (CalendarDate.ofUnix unixDate).year ∧ (CalendarDate.ofUnix unixDate).year ≤ 9999

instance (unixDate : Int) : Decidable (FourDigitYear unixDate) :=
  inferInstanceAs (Decidable (_ ∧ _))

theorem inWidth_ofUnix {unixDate : Int} (h : FourDigitYear unixDate) :
    InWidth 4 (CalendarDate.ofUnix unixDate).year ∧ InWidth 2 (CalendarDate.ofUnix unixDate).month ∧
      InWidth 2 (CalendarDate.ofUnix unixDate).day := by
  obtain ⟨low, high, first, last⟩ := CalendarDate.valid_ofUnix unixDate
  have longest := daysInMonth_bounds (CalendarDate.ofUnix unixDate).year
    (CalendarDate.ofUnix unixDate).month
  unfold FourDigitYear at h
  unfold InWidth
  omega

theorem key_ofUnix_strictMono : StrictMono fun unixDate => (CalendarDate.ofUnix unixDate).key := by
  intro first second earlier
  exact CalendarDate.key_ofJulian_strictMono (by omega)

section
variable {first second : Int}

theorem orderedAs_writeDate (h : FourDigitYear first) (h' : FourDigitYear second) :
    Text.OrderedAs (writeDate first) (writeDate second) first second := by
  obtain ⟨year, month, day⟩ := inWidth_ofUnix h
  obtain ⟨year', month', day'⟩ := inWidth_ofUnix h'
  have fields := (orderedAs_zeroPadded year year' (by decide)).append
    (((orderedAs_zeroPadded month month' (by decide)).append
      ((orderedAs_zeroPadded day day' (by decide)).cons '-')).cons '-')
  simp only [writeDate, writeCalendarDate, List.append_assoc, List.cons_append]
  exact fields.congr key_ofUnix_strictMono.lt_iff_lt key_ofUnix_strictMono.injective.eq_iff

theorem length_writeDate (h : FourDigitYear first) : (writeDate first).length = 10 := by
  obtain ⟨year, month, day⟩ := inWidth_ofUnix h
  simp only [writeDate, writeCalendarDate, List.length_append, List.length_cons,
    length_zeroPadded_of_inWidth year (by decide), length_zeroPadded_of_inWidth month (by decide),
    length_zeroPadded_of_inWidth day (by decide)]

end

theorem ofDigitChars_fractionText {millis : Int} (h : InWidth 3 millis) (digits : Nat) :
    Nat.ofDigitChars 10 (fractionText millis digits) 0 =
      10 ^ (digits - min digits 3) * (millis.natAbs / 10 ^ (3 - digits)) := by
  have three := length_zeroPadded_of_inWidth h (by decide)
  rw [fractionText, ofDigitChars_rightpad, List.length_take, three,
    ofDigitChars_take fun c => isDigit_of_mem_zeroPadded h.1, three,
    ofDigitChars_zeroPadded 3 h.1]

theorem orderedAs_fractionText {millis millis' : Int} (h : InWidth 3 millis)
    (h' : InWidth 3 millis') (digits : Nat) :
    Text.OrderedAs (fractionText millis digits) (fractionText millis' digits)
      (millis / 10 ^ (3 - digits)) (millis' / 10 ^ (3 - digits)) := by
  have order := orderedAs_digits (fun c => isDigit_of_mem_fractionText h.1)
    (fun c => isDigit_of_mem_fractionText h'.1)
    ((length_fractionText millis digits).trans (length_fractionText millis' digits).symm)
  have units : ∀ {n : Int}, 0 ≤ n →
      n / 10 ^ (3 - digits) = (n.natAbs / 10 ^ (3 - digits) : Nat) := by
    intro n nonneg
    rw [Int.natCast_div, Int.natCast_natAbs, abs_of_nonneg nonneg]
    push_cast
    rfl
  rw [ofDigitChars_fractionText h, ofDigitChars_fractionText h'] at order
  rw [units h.1, units h'.1]
  have scale : 0 < 10 ^ (digits - min digits 3) := by positivity
  refine order.congr ?_ ?_
  · rw [Nat.mul_lt_mul_left scale, Nat.cast_lt]
  · rw [Nat.mul_right_inj scale.ne', Nat.cast_inj]

section
variable {first second : Int} (precision : Int)

theorem orderedAs_behind {millis millis' : Int} (h : InWidth 3 millis) (h' : InWidth 3 millis') :
    Text.OrderedAs (if 0 < precision then '.' :: fractionText millis precision.toNat else [])
      (if 0 < precision then '.' :: fractionText millis' precision.toNat else [])
      (millis / lastDigitUnit precision) (millis' / lastDigitUnit precision) := by
  unfold lastDigitUnit
  split
  · have exponent : (3 - min (max precision 0) 3).toNat = 3 - precision.toNat := by omega
    rw [exponent]
    exact (orderedAs_fractionText h h' _).cons '.'
  · have exponent : (3 - min (max precision 0) 3).toNat = 3 := by omega
    rw [exponent, Int.ediv_eq_zero_of_lt h.1 h.2, Int.ediv_eq_zero_of_lt h'.1 h'.2]
    exact ⟨rfl, by simp, by simp⟩

theorem lastDigitUnit_cases :
    lastDigitUnit precision = 1000 ∨ lastDigitUnit precision = 100 ∨
      lastDigitUnit precision = 10 ∨ lastDigitUnit precision = 1 := by
  have digits : (3 - min (max precision 0) 3).toNat = 3 ∨ (3 - min (max precision 0) 3).toNat = 2 ∨
      (3 - min (max precision 0) 3).toNat = 1 ∨ (3 - min (max precision 0) 3).toNat = 0 := by omega
  unfold lastDigitUnit
  rcases digits with three | two | one | none
  · rw [three]; decide
  · rw [two]; decide
  · rw [one]; decide
  · rw [none]; decide

theorem inWidth_ofTime {time : Int} (h : Timestamp.InDay time) :
    InWidth 2 (ClockParts.ofTime time).hour ∧ InWidth 2 (ClockParts.ofTime time).minute ∧
      InWidth 2 (ClockParts.ofTime time).second ∧ InWidth 3 (ClockParts.ofTime time).millis := by
  simp only [Timestamp.InDay, InWidth, ClockParts.ofTime, millisPerDay, millisPerHour,
    millisPerMinute, millisPerSecond] at *
  omega

theorem orderedAs_writeTime (h : Timestamp.InDay first) (h' : Timestamp.InDay second) :
    Text.OrderedAs (writeTime first precision) (writeTime second precision)
      (first / lastDigitUnit precision) (second / lastDigitUnit precision) := by
  obtain ⟨hour, minute, sec, millis⟩ := inWidth_ofTime h
  obtain ⟨hour', minute', sec', millis'⟩ := inWidth_ofTime h'
  have fields := (orderedAs_zeroPadded hour hour' (by decide)).append
    (((orderedAs_zeroPadded minute minute' (by decide)).append
      (((orderedAs_zeroPadded sec sec' (by decide)).append
        (orderedAs_behind precision millis millis')).cons ':')).cons ':')
  simp only [writeTime, List.append_assoc, List.cons_append]
  apply fields.congr
  all_goals
    simp only [Prod.Lex.toLex_lt_toLex, toLex_inj, Prod.mk.injEq, ClockParts.ofTime,
      millisPerHour, millisPerMinute, millisPerSecond]
    rcases lastDigitUnit_cases precision with unit | unit | unit | unit
    all_goals
      rw [unit]
      omega

theorem orderedAs_writeTimestamp (h : FourDigitYear (Timestamp.date first))
    (h' : FourDigitYear (Timestamp.date second)) :
    Text.OrderedAs (writeTimestamp first precision) (writeTimestamp second precision)
      (first / lastDigitUnit precision) (second / lastDigitUnit precision) := by
  have parts := (orderedAs_writeDate h h').append
    ((orderedAs_writeTime precision (Timestamp.inDay_time first)
      (Timestamp.inDay_time second)).cons ' ')
  apply parts.congr
  all_goals
    simp only [Prod.Lex.toLex_lt_toLex, toLex_inj, Prod.mk.injEq, Timestamp.date, Timestamp.time,
      millisPerDay]
    rcases lastDigitUnit_cases precision with unit | unit | unit | unit
    all_goals
      rw [unit]
      omega

theorem length_writeTime (h : Timestamp.InDay first) :
    ((writeTime first precision).length : Int) = if precision ≤ 0 then 8 else 9 + precision := by
  obtain ⟨hour, minute, sec, -⟩ := inWidth_ofTime h
  simp only [writeTime, List.length_append, List.length_cons,
    length_zeroPadded_of_inWidth hour (by decide), length_zeroPadded_of_inWidth minute (by decide),
    length_zeroPadded_of_inWidth sec (by decide)]
  split
  · rw [List.length_cons, length_fractionText, if_neg (by omega)]
    omega
  · rw [List.length_nil, if_pos (by omega)]
    rfl

theorem length_writeTimestamp (h : FourDigitYear (Timestamp.date first)) :
    ((writeTimestamp first precision).length : Int) =
      if precision ≤ 0 then 19 else 20 + precision := by
  have time := length_writeTime precision (Timestamp.inDay_time first)
  rw [writeTimestamp, List.length_append, List.length_cons, length_writeDate h]
  split at time <;> omega

theorem lastDigitUnit_pos : 0 < lastDigitUnit precision := by
  unfold lastDigitUnit
  positivity

theorem lastDigitUnit_of_three_le (h : 3 ≤ precision) : lastDigitUnit precision = 1 := by
  have exponent : (3 - min (max precision 0) 3).toNat = 0 := by omega
  rw [lastDigitUnit, exponent, pow_zero]

end

/-- Two timestamps of the years 0..9999 have texts of one length at any precision, and the later
one has no smaller text; at three digits or more it has a greater one. Of two dates of these years
the later one has the greater text, and the same length. -/
theorem written_text_in_time_order :
    (∀ first second precision : Int, FourDigitYear (Timestamp.date first) →
      FourDigitYear (Timestamp.date second) → first ≤ second →
      ((writeTimestamp first precision).length : Int) =
          (if precision ≤ 0 then 19 else 20 + precision) ∧
        (writeTimestamp second precision).length = (writeTimestamp first precision).length ∧
        writeTimestamp first precision ≤ writeTimestamp second precision ∧
        (3 ≤ precision → first < second →
          writeTimestamp first precision < writeTimestamp second precision)) ∧
    ∀ first second : Int, FourDigitYear first → FourDigitYear second → first ≤ second →
      (writeDate first).length = 10 ∧ (writeDate second).length = 10 ∧
        writeDate first ≤ writeDate second ∧
        (first < second → writeDate first < writeDate second) := by
  constructor
  · intro first second precision year year' notAfter
    have order := orderedAs_writeTimestamp precision year year'
    have reverse := orderedAs_writeTimestamp precision year' year
    refine ⟨length_writeTimestamp precision year, order.length_eq.symm, ?_, ?_⟩
    · rw [← not_lt, reverse.lt_iff, not_lt]
      exact Int.ediv_le_ediv (lastDigitUnit_pos precision) notAfter
    · intro digits earlier
      rw [order.lt_iff, lastDigitUnit_of_three_le precision digits, Int.ediv_one, Int.ediv_one]
      exact earlier
  · intro first second year year' notAfter
    have order := orderedAs_writeDate year year'
    have reverse := orderedAs_writeDate year' year
    refine ⟨length_writeDate year, length_writeDate year', ?_, order.lt_iff.2⟩
    rw [← not_lt, reverse.lt_iff, not_lt]
    exact notAfter

theorem written_text_in_time_order_new_year :
    (FourDigitYear (Timestamp.date (-1)) ∧ FourDigitYear (Timestamp.date 0) ∧ (-1 : Int) ≤ 0 ∧
      (3 : Int) ≤ 3 ∧ (-1 : Int) < 0 ∧
      "1969-12-31 23:59:59.999".toList < "1970-01-01 00:00:00.000".toList) ∧
    FourDigitYear (-719469) ∧ FourDigitYear (-719468) ∧ (-719469 : Int) ≤ -719468 ∧
      (-719469 : Int) < -719468 ∧ "0000-02-29".toList < "0000-03-01".toList := by
  have last : FourDigitYear (Timestamp.date (-1)) := by decide
  have first : FourDigitYear (Timestamp.date 0) := by decide
  have leapDay : FourDigitYear (-719469) := by decide
  have march : FourDigitYear (-719468) := by decide
  refine ⟨⟨last, first, by decide, by decide, by decide, ?_⟩, leapDay, march, by decide, by decide,
    ?_⟩
  · exact (written_text_in_time_order.1 (-1) 0 3 last first (by decide)).2.2.2 (by decide)
      (by decide)
  · exact (written_text_in_time_order.2 (-719469) (-719468) leapDay march (by decide)).2.2.2
      (by decide)

end Almanac.Literal
