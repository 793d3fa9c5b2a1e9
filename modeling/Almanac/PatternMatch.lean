import Almanac.DatePattern
import Almanac.DateTime

/-!
Text read by a pattern. The text is split into one piece per token: a literal's piece is the
character itself, a field's piece is a run of ASCII digits, of the letters' number if another field
follows at once and of any length otherwise. Of several splits the one with the longest pieces,
from left to right, is taken, and the values in it are read as a clock reading of a zone. Main
statement: the pieces that are found are a split, joined again they are the front of the text.
-/

namespace Almanac.DatePattern

def startsWithField : List PatternToken → Bool
  | .field _ _ :: _ => true
  | _ => false

theorem exists_of_startsWithField {tokens : List PatternToken} (h : startsWithField tokens) :
    ∃ field width rest, tokens = .field field width :: rest := by
  cases tokens with
  | nil => cases h
  | cons token rest =>
    cases token with
    | field field width => exact ⟨field, width, rest, rfl⟩
    | literal c => cases h

/-- A first piece of digits and the pieces of the rest of the text: the longest piece, and not an
empty one, after which the rest is split. -/
def longestPiece? (rest? : Text → Option (List Text)) : Text → Option (Text × List Text)
  | [] => none
  | c :: text =>
    if c.isDigit then
      match longestPiece? rest? text with
      | some (piece, pieces) => some (c :: piece, pieces)
      | none => (rest? text).map fun pieces => ([c], pieces)
    else none

/-- The first of the splits, in the order of their piece lengths, longer ones first. -/
def split? : List PatternToken → Text → Option (List Text)
  | [], _ => some []
  | .literal _ :: _, [] => none
  | .literal c :: tokens, first :: rest =>
    if first = c then (split? tokens rest).map ([c] :: ·) else none
  | .field _ width :: tokens, text =>
    if startsWithField tokens then
      let piece := text.take width
      if piece.length = width ∧ piece.all Char.isDigit then
        (split? tokens (text.drop width)).map (piece :: ·)
      else none
    else
      (longestPiece? (split? tokens) text).map fun (piece, pieces) => piece :: pieces

/-- Sequences of pieces, one per token, that a text can be split into from its start on. -/
inductive Split : List PatternToken → Text → List Text → Prop where
  | nil (text : Text) : Split [] text []
  | literal {c : Char} {tokens : List PatternToken} {text : Text} {pieces : List Text}
      (rest : Split tokens text pieces) : Split (.literal c :: tokens) (c :: text) ([c] :: pieces)
  | field {field : PatternField} {width : Nat} {tokens : List PatternToken} {piece text : Text}
      {pieces : List Text} (nonempty : piece ≠ []) (digits : ∀ c ∈ piece, c.isDigit)
      (exact : startsWithField tokens → piece.length = width) (rest : Split tokens text pieces) :
      Split (.field field width :: tokens) (piece ++ text) (piece :: pieces)

theorem Split.prefix_flatten {tokens : List PatternToken} {text : Text} {pieces : List Text}
    (h : Split tokens text pieces) : ∃ rest, text = pieces.flatten ++ rest := by
  induction h with
  | nil text => exact ⟨text, rfl⟩
  | literal _ ih =>
    obtain ⟨rest, rfl⟩ := ih
    exact ⟨rest, rfl⟩
  | field _ _ _ _ ih =>
    obtain ⟨rest, rfl⟩ := ih
    exact ⟨rest, by simp⟩

theorem longestPiece?_eq_some {rest? : Text → Option (List Text)} {text piece : Text}
    {pieces : List Text} (h : longestPiece? rest? text = some (piece, pieces)) :
    piece ≠ [] ∧ (∀ c ∈ piece, c.isDigit) ∧
      ∃ rest, text = piece ++ rest ∧ rest? rest = some pieces := by
  induction text generalizing piece with
  | nil => cases h
  | cons c text ih =>
    unfold longestPiece? at h
    split at h
    · next digit =>
      split at h
      · next longer pieces' eq =>
        cases h
        obtain ⟨-, digits, rest, rfl, found⟩ := ih eq
        exact ⟨by simp, by simpa [digit] using digits, rest, rfl, found⟩
      · obtain ⟨pieces', found, same⟩ := Option.map_eq_some_iff.1 h
        cases same
        exact ⟨by simp, by simpa using digit, text, rfl, found⟩
    · cases h

theorem split_of_split? {tokens : List PatternToken} {text : Text} {pieces : List Text}
    (separate : Separate tokens) (h : split? tokens text = some pieces) :
    Split tokens text pieces := by
  induction tokens generalizing text pieces with
  | nil =>
    cases h
    exact .nil text
  | cons token tokens ih =>
    match token, text with
    | .literal c, [] => cases h
    | .literal c, first :: text =>
      simp only [split?] at h
      split at h
      · next same =>
        obtain ⟨rest, eq, rfl⟩ := Option.map_eq_some_iff.1 h
        rw [same]
        exact .literal (ih separate eq)
      · cases h
    | .field field width, text =>
      simp only [split?] at h
      split at h
      · next follows =>
        split at h
        · next inside =>
          obtain ⟨rest, eq, rfl⟩ := Option.map_eq_some_iff.1 h
          have nonempty : text.take width ≠ [] := by
            intro empty
            have := separate.1
            simp only [empty, List.length_nil] at inside
            omega
          have whole : Split (.field field width :: tokens) (text.take width ++ text.drop width)
              (text.take width :: rest) :=
            .field nonempty (List.all_eq_true.1 inside.2) (fun _ => inside.1) (ih separate.2.2 eq)
          rwa [List.take_append_drop] at whole
        · cases h
      · next alone =>
        obtain ⟨⟨piece, rest⟩, found, rfl⟩ := Option.map_eq_some_iff.1 h
        obtain ⟨nonempty, digits, behind, rfl, eq⟩ := longestPiece?_eq_some found
        exact .field nonempty digits (fun follows => absurd follows alone) (ih separate.2.2 eq)

/-- The values of all fields; a field that a pattern lacks has its value of 1970-01-01 00:00. -/
structure FieldValues where
  year : Int := 1970
  month : Int := 1
  day : Int := 1
  hour : Int := 0
  minute : Int := 0
  second : Int := 0
  milli : Int := 0
deriving DecidableEq, Repr

namespace FieldValues

def set (values : FieldValues) (value : Int) : PatternField → FieldValues
  | .year => { values with year := value }
  | .month => { values with month := value }
  | .day => { values with day := value }
  | .hour => { values with hour := value }
  | .minute => { values with minute := value }
  | .second => { values with second := value }
  | .milli => { values with milli := value }

def reading? (values : FieldValues) : Option Reading :=
  if values.milli ≤ 999 then
    Reading.ofFields? ⟨values.year, values.month, values.day⟩
      ⟨values.hour, values.minute, values.second, values.milli * 1000⟩
  else none

end FieldValues

inductive DigitLimit where
  | exceeded
deriving DecidableEq, Repr

/-- Reads the pieces of the fields; of several pieces for one field the last one counts. -/
def readFields (values : FieldValues) :
    List PatternToken → List Text → Except DigitLimit FieldValues
  | .field field _ :: tokens, piece :: pieces =>
    match Numeral.readDigits? piece with
    | some value => readFields (values.set value field) tokens pieces
    | none => .error .exceeded
  | .literal _ :: tokens, _ :: pieces => readFields values tokens pieces
  | _, _ => .ok values

structure Match where
  value : DateTime
  stop : Int
deriving DecidableEq, Repr

/-- Reads the text from a position on; one before its start is its start, one past its end its end.
The clock reading is one of the zone, the answer is in UTC. -/
def read (pattern : DatePattern) (text : Text) (position : Int) (zone : Zone) :
    Except DigitLimit (Option Match) :=
  let start := min position.toNat text.length
  match split? pattern.tokens (text.drop start) with
  | none => .ok none
  | some pieces =>
    (readFields {} pattern.tokens pieces).map fun values =>
      (values.reading?.bind fun reading => DateTime.toUtc? ⟨reading, some zone⟩).map fun utc =>
        { value := .ofUtc utc, stop := (start + pieces.flatten.length : Nat) }

/-- Positions are signed words of 64 bits. -/
def IsPosition (position : Int) : Prop :=
  -9223372036854775808 ≤ position ∧ position < 9223372036854775808

instance (position : Int) : Decidable (IsPosition position) :=
  inferInstanceAs (Decidable (_ ∧ _))

inductive MatchFault where
  | noPosition
  | digitLimit
deriving DecidableEq, Repr

/-- Reads the text from any integer on; one that is no position is refused before the text is
looked at. -/
def readFrom (pattern : DatePattern) (text : Text) (position : Int) (zone : Zone) :
    Except MatchFault (Option Match) :=
  if IsPosition position then
    match pattern.read text position zone with
    | .ok match? => .ok match?
    | .error .exceeded => .error .digitLimit
  else .error .noPosition

end Almanac.DatePattern
