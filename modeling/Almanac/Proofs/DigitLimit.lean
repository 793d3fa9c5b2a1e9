import Almanac.DateFormat
import Almanac.Proofs.PatternRendering

/-! Readings that end without an answer. A pattern answers that a text does not match it wherever
there is no split, and wherever the values of the greatest split are no clock reading; only a field
that has more digits than a number may have is given up before its value is known. Main statement:
such a field in the greatest split, or an integer that is no position, keeps a pattern from its
answer, and nothing else does. -/

namespace Almanac.DatePattern

/-- The greatest split of the text has a field with more digits than a number may have. -/
def ExceedsLimit (tokens : List PatternToken) (text : Text) : Prop :=
  ∃ pieces, GreatestSplit tokens text pieces ∧ ¬Short tokens pieces

theorem exceedsLimit_iff {tokens : List PatternToken} {text : Text} {pieces : List Text}
    (greatest : GreatestSplit tokens text pieces) :
    ExceedsLimit tokens text ↔ ¬Short tokens pieces := by
  constructor
  · rintro ⟨other, also, long⟩
    rwa [greatest.unique also]
  · intro long
    exact ⟨pieces, greatest, long⟩

theorem exceedsLimit_run {field : PatternField} {width : Nat} {text : Text} (positive : 1 ≤ width)
    (digits : ∀ c ∈ text, c.isDigit) (long : Numeral.maxDigits < text.length) :
    ExceedsLimit [.field field width] text := by
  have nonempty : text ≠ [] := List.ne_nil_of_length_pos (Nat.zero_lt_of_lt long)
  have piece : longestPiece? (split? []) text = some (text, []) := by
    have whole := @longestPiece?_of_boundary (split? []) text [] [] nonempty digits (by simp) rfl
    rwa [List.append_nil] at whole
  have separate : Separate [.field field width] := ⟨positive, by simp, trivial⟩
  have greatest := greatestSplit_of_split? separate (split?_alone Bool.false_ne_true piece)
  refine ⟨[text], greatest, fun short => ?_⟩
  exact absurd (short_field_iff.1 short).1 (Nat.not_le.2 long)

theorem readFields_eq_error_iff {tokens : List PatternToken} {text : Text} {pieces : List Text}
    (split : Split tokens text pieces) (fault : DigitLimit) :
    readFields {} tokens pieces = .error fault ↔ ¬Short tokens pieces := by
  constructor
  · intro refused short
    rw [readFields_eq_writtenValues split short] at refused
    cases refused
  · intro long
    cases values : readFields {} tokens pieces with
    | error limit => rfl
    | ok result => exact absurd (short_of_readFields split values) long

theorem read_eq_error_iff {pattern : DatePattern} (separate : Separate pattern.tokens)
    (text : Text) (position : Int) (zone : Zone) (fault : DigitLimit) :
    pattern.read text position zone = .error fault ↔
      ExceedsLimit pattern.tokens (text.drop position.toNat) := by
  have start : text.drop (min position.toNat text.length) = text.drop position.toNat := by
    rw [List.drop_eq_drop_iff]
    omega
  simp only [read, start]
  cases found : split? pattern.tokens (text.drop position.toNat) with
  | none =>
    constructor
    · rintro ⟨⟩
    · rintro ⟨pieces, greatest, -⟩
      rw [split?_of_greatestSplit separate greatest] at found
      cases found
  | some pieces =>
    have greatest := greatestSplit_of_split? separate found
    rw [exceedsLimit_iff greatest, ← readFields_eq_error_iff greatest.split fault]
    dsimp only
    cases readFields {} pattern.tokens pieces <;> simp [Except.map]

theorem readWhole_eq_error_iff {pattern : DatePattern} (text : Text) (zone : Zone)
    (fault : ReadFault) :
    pattern.toFormat.readWhole text zone = .error fault ↔
      fault = .digitLimit ∧ pattern.read text 0 zone = .error .exceeded := by
  simp only [DateFormat.readWhole, toFormat]
  cases pattern.read text 0 zone with
  | error limit => cases fault <;> simp [Except.map]
  | ok match? =>
    cases match? with
    | none => simp [Except.map]
    | some found =>
      simp only [Except.map, Option.map_some]
      split <;> simp

theorem readFrom_eq_error_iff {source : Text} {pattern : DatePattern}
    (accepted : ofText source = .ok pattern) (text : Text) (zone : Zone) :
    (∀ position fault, pattern.readFrom text position zone = .error fault ↔
      fault = .noPosition ∧ ¬IsPosition position ∨
        fault = .digitLimit ∧ IsPosition position ∧
          ExceedsLimit pattern.tokens (text.drop position.toNat)) ∧
    ∀ fault, pattern.toFormat.readWhole text zone = .error fault ↔
      fault = .digitLimit ∧ ExceedsLimit pattern.tokens text := by
  have separate := separate_of_ofText accepted
  constructor
  · intro position fault
    rw [← read_eq_error_iff separate text position zone .exceeded]
    by_cases inRange : IsPosition position
    · simp only [readFrom, inRange]
      cases pattern.read text position zone with
      | error limit => cases fault <;> simp
      | ok match? => simp
    · simp [readFrom, inRange, eq_comm]
  · intro fault
    rw [readWhole_eq_error_iff, read_eq_error_iff separate text 0 zone .exceeded]
    rfl

theorem readFrom_eq_error_iff_long_year :
    ofText "y".toList = .ok ⟨"y".toList, [.field .year 1]⟩ ∧
      readFrom ⟨"y".toList, [.field .year 1]⟩ (List.replicate 4301 '9') 0 (.fixed 0) =
        .error .digitLimit ∧
      DateFormat.readWhole (toFormat ⟨"y".toList, [.field .year 1]⟩) (List.replicate 4301 '9')
        (.fixed 0) = .error .digitLimit := by
  have accepted : ofText "y".toList = .ok ⟨"y".toList, [.field .year 1]⟩ := rfl
  have exceeds : ExceedsLimit [.field .year 1] (List.replicate 4301 '9') := by
    refine exceedsLimit_run le_rfl (fun c member => ?_) ?_
    · rw [List.eq_of_mem_replicate member]
      decide
    · rw [List.length_replicate]
      decide
  obtain ⟨from_iff, whole_iff⟩ :=
    readFrom_eq_error_iff accepted (List.replicate 4301 '9') (.fixed 0)
  exact ⟨accepted, (from_iff 0 _).2 (.inr ⟨rfl, by decide, exceeds⟩), (whole_iff _).2 ⟨rfl, exceeds⟩⟩

end Almanac.DatePattern
