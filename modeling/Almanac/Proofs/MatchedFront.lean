import Almanac.PatternScan
import Almanac.Proofs.KeptFraction

/-! The front of a text that a pattern matches, as a text of its own. What is behind a split takes
no part in it, so that the greatest split of a text is the greatest one of its front as well. The
other way round a longer text may have a greater split, but not if a point follows: fields hold no
point, and the literals of all splits together hold the same number of them. Main statement: a text
is read with a fraction if and only if it is a text that is read as a whole, alone or with a point
and digits behind it, whose milliseconds are added. -/

namespace Almanac.DatePattern

theorem Split.append {tokens : List PatternToken} {text : Text} {pieces : List Text}
    (h : Split tokens text pieces) (rest : Text) :
    Split tokens (pieces.flatten ++ rest) pieces := by
  induction h with
  | nil => exact .nil _
  | literal _ ih => exact .literal ih
  | field nonempty digits exact _ ih =>
    rw [List.flatten_cons, List.append_assoc]
    exact .field nonempty digits exact ih

theorem Split.count_point {tokens : List PatternToken} {text : Text} {pieces : List Text}
    (h : Split tokens text pieces) :
    pieces.flatten.count '.' = tokens.count (.literal '.') := by
  induction h with
  | nil => rfl
  | @literal c tokens text pieces _ ih =>
    simp [List.count_cons, ih, Nat.add_comm]
  | @field field width tokens piece text pieces nonempty digits exact _ ih =>
    have noPoint : piece.count '.' = 0 := by
      rw [List.count_eq_zero]
      intro member
      exact absurd (digits '.' member) (by decide)
    simp [ih, noPoint]

section
variable {tokens : List PatternToken} {pieces : List Text} {rest : Text}

theorem GreatestSplit.front (h : GreatestSplit tokens (pieces.flatten ++ rest) pieces) :
    GreatestSplit tokens pieces.flatten pieces := by
  constructor
  · have alone := h.split.append []
    rwa [List.append_nil] at alone
  · intro other split
    obtain ⟨behind, whole⟩ := split.prefix_flatten
    have longer := split.append (behind ++ rest)
    rw [← List.append_assoc, ← whole] at longer
    exact h.greatest other longer

theorem Split.flatten_prefix (h : Split tokens pieces.flatten pieces) {other : List Text}
    (split : Split tokens (pieces.flatten ++ '.' :: rest) other) :
    other.flatten <+: pieces.flatten := by
  obtain ⟨behind, whole⟩ := split.prefix_flatten
  have points := h.count_point.trans split.count_point.symm
  rcases List.append_eq_append_iff.1 whole with ⟨more, longer, point⟩ | ⟨more, shorter, -⟩
  · cases more with
    | nil => exact ⟨[], by rw [longer, List.append_nil, List.append_nil]⟩
    | cons c more =>
      -- a split that reached past the point would hold one point too many
      obtain ⟨rfl, -⟩ := List.cons.inj point
      rw [longer, List.count_append, List.count_cons_self] at points
      omega
  · exact ⟨more, shorter.symm⟩

theorem GreatestSplit.append_point (h : GreatestSplit tokens pieces.flatten pieces) :
    GreatestSplit tokens (pieces.flatten ++ '.' :: rest) pieces := by
  refine ⟨h.split.append _, fun other split => ?_⟩
  obtain ⟨more, whole⟩ := h.split.flatten_prefix split
  have alone := split.append more
  rw [whole] at alone
  exact h.greatest other alone

end

section
variable {pattern : DatePattern} {zone : Zone} {text : Text}

theorem read_congr {text' : Text} (zone : Zone)
    (same : split? pattern.tokens text = split? pattern.tokens text') :
    pattern.read text 0 zone = pattern.read text' 0 zone := by
  simp [read, same]

theorem exists_split?_of_read {found : Match} (h : pattern.read text 0 zone = .ok (some found)) :
    ∃ pieces, split? pattern.tokens text = some pieces ∧ found.stop = pieces.flatten.length := by
  have start : min (0 : Int).toNat text.length = 0 := Nat.zero_min _
  simp only [read, start, List.drop_zero, Nat.zero_add] at h
  cases taken : split? pattern.tokens text with
  | none =>
    rw [taken] at h
    cases h
  | some pieces =>
    rw [taken] at h
    obtain ⟨values, -, answer⟩ := exists_of_map_ok h
    obtain ⟨utc, -, rfl⟩ := Option.map_eq_some_iff.1 answer
    exact ⟨pieces, rfl, rfl⟩

end

end Almanac.DatePattern

namespace Almanac.DateFormat
open DatePattern

theorem readWhole_eq_found_iff {format : DateFormat} {text : Text} {zone : Zone} {value : Value} :
    readWhole format text zone = .ok (.found value) ↔
      format.read text zone = .ok (some ⟨value, text.length⟩) := by
  unfold readWhole
  cases format.read text zone with
  | error fault => simp
  | ok found? =>
    cases found? with
    | none => simp
    | some found =>
      obtain ⟨taken, stop⟩ := found
      by_cases whole : stop = text.length <;> simp [whole]

theorem fractionBehind_append_iff {front rest digits : Text} :
    FractionBehind (front ++ rest) front.length digits ↔
      Literal.Behind rest digits ∧ ∀ c ∈ digits, c.isDigit := by
  have nothing : ((front ++ rest).length : Int) ≤ front.length ↔ rest = [] := by
    rw [List.length_append, ← List.length_eq_zero_iff]
    omega
  rw [FractionBehind, Literal.Behind, nothing, Text.suffixFrom_natCast, List.drop_left]

section
variable {pattern : DatePattern} (separate : Separate pattern.tokens)
  {text front rest digits : Text} {zone : Zone} {moment : DateTime}
include separate

theorem exists_front_of_read {stop : Int}
    (h : pattern.read text 0 zone = .ok (some ⟨moment, stop⟩)) :
    ∃ front rest, text = front ++ rest ∧ stop = front.length ∧
      pattern.read front 0 zone = .ok (some ⟨moment, front.length⟩) := by
  obtain ⟨pieces, taken, length⟩ := exists_split?_of_read h
  have greatest := greatestSplit_of_split? separate taken
  obtain ⟨rest, rfl⟩ := greatest.split.prefix_flatten
  have alone := split?_of_greatestSplit separate greatest.front
  simp only at length
  subst length
  refine ⟨_, rest, rfl, rfl, ?_⟩
  rw [← read_congr zone (taken.trans alone.symm)]
  exact h

theorem read_append_of_read (behind : Literal.Behind rest digits)
    (h : pattern.read front 0 zone = .ok (some ⟨moment, front.length⟩)) :
    pattern.read (front ++ rest) 0 zone = .ok (some ⟨moment, front.length⟩) := by
  rcases behind with ⟨rfl, -⟩ | rfl
  · rw [List.append_nil]
    exact h
  · obtain ⟨pieces, taken, length⟩ := exists_split?_of_read h
    have greatest := greatestSplit_of_split? separate taken
    obtain ⟨rest, rfl⟩ := greatest.split.prefix_flatten
    have nothing : rest = [] := by
      simp only [List.length_append] at length
      exact List.eq_nil_of_length_eq_zero (by omega)
    subst nothing
    rw [List.append_nil] at taken greatest h ⊢
    have longer : split? pattern.tokens (pieces.flatten ++ '.' :: digits) = some pieces :=
      split?_of_greatestSplit separate greatest.append_point
    rw [read_congr zone (longer.trans taken.symm)]
    exact h

theorem readPrecision_eq_found_iff {maxPrecision : Int} {time : PrecisionTime} :
    readPrecision pattern.toFormat text zone maxPrecision = .ok (.found time) ↔
      ∃ front rest digits moment, text = front ++ rest ∧ Literal.Behind rest digits ∧
        (∀ c ∈ digits, c.isDigit) ∧
        readWhole pattern.toFormat front zone = .ok (.found (.dateTime moment)) ∧
        withFraction moment (keptDigits digits maxPrecision) = .ok time := by
  simp only [readWhole_eq_found_iff]
  constructor
  · intro found
    obtain ⟨moment, stop, matched, -⟩ := exists_of_readPrecision found
    obtain ⟨digits, behind⟩ := exists_fractionBehind_of_found matched found
    obtain ⟨_, ⟨⟩, taken⟩ := toFormat_read_eq_some_iff.1 matched
    obtain ⟨front, rest, rfl, rfl, alone⟩ := exists_front_of_read separate taken
    rw [readPrecision_of_fractionBehind matched behind] at found
    obtain ⟨_, added, ⟨⟩⟩ := exists_of_map_ok found
    obtain ⟨behind, allDigits⟩ := fractionBehind_append_iff.1 behind
    exact ⟨front, rest, digits, moment, rfl, behind, allDigits,
      toFormat_read_eq_some_iff.2 ⟨moment, rfl, alone⟩, added⟩
  · rintro ⟨front, rest, digits, moment, rfl, behind, allDigits, whole, added⟩
    obtain ⟨_, ⟨⟩, alone⟩ := toFormat_read_eq_some_iff.1 whole
    have taken := read_append_of_read separate behind alone
    rw [readPrecision_of_fractionBehind (toFormat_read_eq_some_iff.2 ⟨moment, rfl, taken⟩)
      (fractionBehind_append_iff.2 ⟨behind, allDigits⟩), added]
    rfl

theorem readPrecision_of_readWhole {value : Value}
    (h : readWhole pattern.toFormat text zone = .ok (.found value)) (maxPrecision : Int) :
    ∃ moment, value = .dateTime moment ∧
      readPrecision pattern.toFormat text zone maxPrecision = .ok (.found ⟨moment, [], 0⟩) := by
  obtain ⟨moment, rfl, -⟩ := toFormat_read_eq_some_iff.1 (readWhole_eq_found_iff.1 h)
  have added : withFraction moment (keptDigits [] maxPrecision) = .ok ⟨moment, [], 0⟩ := by
    rw [keptDigits_nil, withFraction_nil]
  exact ⟨moment, rfl, (readPrecision_eq_found_iff separate).2
    ⟨text, [], [], moment, (List.append_nil text).symm, .inl ⟨rfl, rfl⟩, List.forall_mem_nil _, h,
      added⟩⟩

end

/-- A text read as a whole is read with a fraction too, and has none. What is read with a fraction
is read as a whole up to the point, and has the milliseconds of the fraction in addition. -/
theorem readWhole_readPrecision_agree {source text : Text} {pattern : DatePattern}
    (accepted : ofText source = .ok pattern) (zone : Zone) (maxPrecision : Int) :
    (∀ value, readWhole pattern.toFormat text zone = .ok (.found value) →
      ∃ moment, value = .dateTime moment ∧
        readPrecision pattern.toFormat text zone maxPrecision = .ok (.found ⟨moment, [], 0⟩)) ∧
    ∀ time, readPrecision pattern.toFormat text zone maxPrecision = .ok (.found time) →
      ∃ front rest digits moment, text = front ++ rest ∧ Literal.Behind rest digits ∧
        (∀ c ∈ digits, c.isDigit) ∧
        readWhole pattern.toFormat front zone = .ok (.found (.dateTime moment)) ∧
        Extends time moment digits maxPrecision := by
  have separate := separate_of_ofText accepted
  refine ⟨fun value whole => readPrecision_of_readWhole separate whole maxPrecision,
    fun time found => ?_⟩
  obtain ⟨front, rest, digits, moment, joined, behind, allDigits, whole, added⟩ :=
    (readPrecision_eq_found_iff separate).1 found
  exact ⟨front, rest, digits, moment, joined, behind, allDigits, whole,
    extends_of_withFraction allDigits added⟩

theorem readWhole_readPrecision_agree_two_points :
    let pattern : DatePattern := ⟨"s.S".toList, [.field .second 1, .literal '.', .field .milli 1]⟩
    let moment : DateTime := .ofUtc ⟨59025000, by decide, by decide⟩
    let time : PrecisionTime := ⟨.ofUtc ⟨59525000, by decide, by decide⟩, "5".toList, 1⟩
    ofText "s.S".toList = .ok pattern ∧
      readWhole pattern.toFormat "59.25".toList .utc = .ok (.found (.dateTime moment)) ∧
      readPrecision pattern.toFormat "59.25".toList .utc (-1) = .ok (.found ⟨moment, [], 0⟩) ∧
      readPrecision pattern.toFormat "59.25.5".toList .utc (-1) = .ok (.found time) ∧
      ∃ front rest digits moment, "59.25.5".toList = front ++ rest ∧ Literal.Behind rest digits ∧
        (∀ c ∈ digits, c.isDigit) ∧
        readWhole pattern.toFormat front .utc = .ok (.found (.dateTime moment)) ∧
        Extends time moment digits (-1) := by
  intro pattern moment time
  have accepted : ofText "s.S".toList = .ok pattern := rfl
  have whole : readWhole pattern.toFormat "59.25".toList .utc =
      .ok (.found (.dateTime moment)) := by decide +kernel
  have found : readPrecision pattern.toFormat "59.25.5".toList .utc (-1) = .ok (.found time) := by
    decide +kernel
  obtain ⟨_, ⟨⟩, alone⟩ := (readWhole_readPrecision_agree accepted .utc (-1)).1 _ whole
  exact ⟨accepted, whole, alone, found,
    (readWhole_readPrecision_agree accepted .utc (-1)).2 time found⟩

end Almanac.DateFormat
