import Mathlib
import Almanac.PatternMatch
import Almanac.Proofs.OrdinalDays

/-! The values that the pieces of a split write. A field has the number of its last run, or its
value at 1970-01-01 00:00 if the pattern has no run of it. The values make a clock reading if they
are a day of the years 1..9999 and a time of day to the millisecond. Main statements: pieces that
are short enough for numbers are read as these values, and values that are read make the instant
that lies the zone's offset before their own count of days, hours and milliseconds. -/

namespace Almanac.DatePattern

def runsOf (field : PatternField) (tokens : List PatternToken) (pieces : List Text) : List Text :=
  (tokens.zip pieces).filterMap fun (token, piece) =>
    match token with
    | .field here _ => if here = field then some piece else none
    | .literal _ => none

def epochValue : PatternField → Int
  | .year => 1970
  | .month | .day => 1
  | .hour | .minute | .second | .milli => 0

def written? (tokens : List PatternToken) (pieces : List Text) (field : PatternField) :
    Option Int :=
  (runsOf field tokens pieces).getLast?.map fun piece => Nat.ofDigitChars 10 piece 0

def writtenValues (tokens : List PatternToken) (pieces : List Text) : FieldValues :=
  let value (field : PatternField) := (written? tokens pieces field).getD (epochValue field)
  ⟨value .year, value .month, value .day, value .hour, value .minute, value .second, value .milli⟩

def Short (tokens : List PatternToken) (pieces : List Text) : Prop :=
  ∀ field, ∀ piece ∈ runsOf field tokens pieces, piece.length ≤ Numeral.maxDigits

theorem runsOf_field (field here : PatternField) (width : Nat) (tokens : List PatternToken)
    (piece : Text) (pieces : List Text) :
    runsOf field (.field here width :: tokens) (piece :: pieces) =
      if here = field then piece :: runsOf field tokens pieces
      else runsOf field tokens pieces := by
  unfold runsOf
  by_cases same : here = field <;> simp [same]

theorem written?_field (field here : PatternField) (width : Nat) (tokens : List PatternToken)
    (piece : Text) (pieces : List Text) :
    written? (.field here width :: tokens) (piece :: pieces) field =
      (written? tokens pieces field).or
        (if here = field then some (Nat.ofDigitChars 10 piece 0 : Int) else none) := by
  unfold written?
  rw [runsOf_field]
  split
  · rw [List.getLast?_cons]
    cases (runsOf field tokens pieces).getLast? <;> rfl
  · rw [Option.or_none]

theorem short_field_iff {here : PatternField} {width : Nat} {tokens : List PatternToken}
    {piece : Text} {pieces : List Text} :
    Short (.field here width :: tokens) (piece :: pieces) ↔
      piece.length ≤ Numeral.maxDigits ∧ Short tokens pieces := by
  unfold Short
  simp only [runsOf_field]
  constructor
  · intro short
    refine ⟨short here piece (by simp), fun field other member => short field other ?_⟩
    split
    · exact List.mem_cons_of_mem _ member
    · exact member
  · rintro ⟨first, others⟩ field other member
    split at member
    · rcases List.mem_cons.1 member with rfl | later
      · exact first
      · exact others field other later
    · exact others field other member

namespace FieldValues

def get (values : FieldValues) : PatternField → Int
  | .year => values.year
  | .month => values.month
  | .day => values.day
  | .hour => values.hour
  | .minute => values.minute
  | .second => values.second
  | .milli => values.milli

theorem get_set (values : FieldValues) (value : Int) (field other : PatternField) :
    (values.set value field).get other = if field = other then value else values.get other := by
  cases field <;> cases other <;> rfl

theorem get_default (field : PatternField) : ({} : FieldValues).get field = epochValue field := by
  cases field <;> rfl

theorem get_writtenValues (tokens : List PatternToken) (pieces : List Text)
    (field : PatternField) :
    (writtenValues tokens pieces).get field =
      (written? tokens pieces field).getD (epochValue field) := by
  cases field <;> rfl

theorem ext_get {first second : FieldValues} (h : ∀ field, first.get field = second.get field) :
    first = second := by
  obtain ⟨_, _, _, _, _, _, _⟩ := first
  obtain ⟨_, _, _, _, _, _, _⟩ := second
  exact (mk.injEq ..).mpr ⟨h .year, h .month, h .day, h .hour, h .minute, h .second, h .milli⟩

end FieldValues

theorem readFields_get {tokens : List PatternToken} {text : Text} {pieces : List Text}
    (split : Split tokens text pieces) (short : Short tokens pieces) (values : FieldValues) :
    ∃ result, readFields values tokens pieces = .ok result ∧
      ∀ field, result.get field = (written? tokens pieces field).getD (values.get field) := by
  induction split generalizing values with
  | nil => exact ⟨values, rfl, fun field => rfl⟩
  | literal rest ih => exact ih short values
  | @field here width tokens piece text pieces nonempty digits exact rest ih =>
    obtain ⟨length, others⟩ := short_field_iff.1 short
    obtain ⟨result, read, fields⟩ := ih others (values.set (Nat.ofDigitChars 10 piece 0 : Nat) here)
    refine ⟨result, ?_, fun field => ?_⟩
    · rw [readFields, Numeral.readDigits?_ascii digits nonempty length]
      exact read
    · rw [fields, written?_field, FieldValues.get_set]
      cases written? tokens pieces field with
      | some value => rfl
      | none => split <;> rfl

theorem short_of_readFields {tokens : List PatternToken} {text : Text} {pieces : List Text}
    (split : Split tokens text pieces) {values result : FieldValues}
    (read : readFields values tokens pieces = .ok result) : Short tokens pieces := by
  induction split generalizing values with
  | nil =>
    intro field piece member
    cases member
  | literal rest ih => exact ih read
  | @field here width tokens piece text pieces nonempty digits exact rest ih =>
    rw [readFields] at read
    split at read
    · next found =>
      rw [Numeral.readDigits?] at found
      split at found
      · cases found
      · next fits => exact short_field_iff.2 ⟨Nat.le_of_not_lt fits, ih read⟩
    · cases read

theorem readFields_eq_writtenValues {tokens : List PatternToken} {text : Text}
    {pieces : List Text} (split : Split tokens text pieces) (short : Short tokens pieces) :
    readFields {} tokens pieces = .ok (writtenValues tokens pieces) := by
  obtain ⟨result, read, fields⟩ := readFields_get split short {}
  rw [read]
  congr 1
  apply FieldValues.ext_get
  intro field
  rw [fields, FieldValues.get_writtenValues, FieldValues.get_default]

namespace FieldValues

def date (values : FieldValues) : CalendarDate := ⟨values.year, values.month, values.day⟩

def Valid (values : FieldValues) : Prop :=
  values.date.Valid ∧ (1 ≤ values.year ∧ values.year ≤ 9999) ∧
    (0 ≤ values.hour ∧ values.hour < 24) ∧ (0 ≤ values.minute ∧ values.minute < 60) ∧
    (0 ≤ values.second ∧ values.second < 60) ∧ 0 ≤ values.milli ∧ values.milli ≤ 999

instance (values : FieldValues) : Decidable values.Valid :=
  inferInstanceAs (Decidable (_ ∧ _))

def micros (values : FieldValues) : Int :=
  (Timestamp.ofFields values.date values.hour values.minute values.second + values.milli) * 1000

def time (values : FieldValues) : ClockTime :=
  ⟨values.hour, values.minute, values.second, values.milli * 1000⟩

theorem valid_time_iff {values : FieldValues} :
    values.time.Valid ↔ (0 ≤ values.hour ∧ values.hour < 24) ∧
      (0 ≤ values.minute ∧ values.minute < 60) ∧ (0 ≤ values.second ∧ values.second < 60) ∧
      0 ≤ values.milli ∧ values.milli ≤ 999 := by
  simp only [time, ClockTime.Valid, microsPerSecond]
  omega

theorem micros_eq (values : FieldValues) :
    values.micros = values.date.toUnix * microsPerDay + values.time.toMicros := by
  simp only [micros, time, ClockTime.toMicros, Timestamp.ofFields, Timestamp.onDate,
    Timestamp.clockMillis, millisPerDay, millisPerHour, millisPerMinute, millisPerSecond,
    microsPerDay, microsPerSecond]
  omega

theorem reading?_of_valid {values : FieldValues} (h : values.Valid) :
    ∃ reading, values.reading? = some reading ∧ reading.micros = values.micros := by
  obtain ⟨day, year, clock⟩ := h
  obtain ⟨reading, count, found⟩ := Reading.ofFields?_of_valid day year (valid_time_iff.2 clock)
  refine ⟨reading, ?_, ?_⟩
  · rw [reading?, if_pos clock.2.2.2.2]
    exact found
  · rw [micros_eq]
    exact count

theorem reading?_of_not_valid {values : FieldValues} (h : ¬values.Valid) :
    values.reading? = none := by
  unfold reading?
  split
  · apply if_neg
    rintro ⟨day, low, high, clock⟩
    exact h ⟨day, ⟨low, high⟩, valid_time_iff.1 clock⟩
  · rfl

def toUtc? (values : FieldValues) (offset : Int) : Option Reading :=
  values.reading?.bind fun reading => DateTime.toUtc? ⟨reading, some (.fixed offset)⟩

theorem toUtc?_of_valid {values : FieldValues} (offset : Int) (h : values.Valid) :
    values.toUtc? offset = Reading.ofMicros? (values.micros - offset) := by
  obtain ⟨reading, read, count⟩ := reading?_of_valid h
  rw [toUtc?, read, ← count]
  rfl

theorem toUtc?_of_not_valid {values : FieldValues} (offset : Int) (h : ¬values.Valid) :
    values.toUtc? offset = none := by
  rw [toUtc?, reading?_of_not_valid h]
  rfl

end FieldValues

theorem start_of_inside {text : Text} {position : Nat} (inside : position ≤ text.length) :
    min (position : Int).toNat text.length = position := by
  omega

theorem read_of_split? {pattern : DatePattern} {text : Text} {position : Nat} {pieces : List Text}
    (inside : position ≤ text.length) (offset : Int)
    (found : split? pattern.tokens (text.drop position) = some pieces)
    (split : Split pattern.tokens (text.drop position) pieces)
    (short : Short pattern.tokens pieces) :
    pattern.read text position (.fixed offset) =
      .ok (((writtenValues pattern.tokens pieces).toUtc? offset).map fun utc =>
        ⟨.ofUtc utc, (position + pieces.flatten.length : Nat)⟩) := by
  simp only [read, start_of_inside inside, found, readFields_eq_writtenValues split short]
  rfl

theorem read_of_digitLimit {pattern : DatePattern} {text : Text} {position : Nat}
    {pieces : List Text} (inside : position ≤ text.length) (zone : Zone)
    (found : split? pattern.tokens (text.drop position) = some pieces)
    (long : readFields {} pattern.tokens pieces = .error .exceeded) :
    pattern.read text position zone = .error .exceeded := by
  simp only [read, start_of_inside inside, found, long]
  rfl

theorem read_of_no_split {pattern : DatePattern} {text : Text} {position : Nat}
    (inside : position ≤ text.length) (zone : Zone)
    (missing : split? pattern.tokens (text.drop position) = none) :
    pattern.read text position zone = .ok none := by
  simp only [read, start_of_inside inside, missing]

theorem exists_of_read {pattern : DatePattern} {text : Text} {position : Nat}
    (separate : Separate pattern.tokens) (inside : position ≤ text.length) {offset : Int}
    {found : Match} (h : pattern.read text position (.fixed offset) = .ok (some found)) :
    ∃ pieces, Split pattern.tokens (text.drop position) pieces ∧ Short pattern.tokens pieces ∧
      (writtenValues pattern.tokens pieces).Valid ∧
      ∃ utc : Reading, utc.micros = (writtenValues pattern.tokens pieces).micros - offset ∧
        found = ⟨.ofUtc utc, (position + pieces.flatten.length : Nat)⟩ := by
  cases taken : split? pattern.tokens (text.drop position) with
  | none =>
    rw [read_of_no_split inside _ taken] at h
    cases h
  | some pieces =>
    have split := split_of_split? separate taken
    have short : Short pattern.tokens pieces := by
      cases values : readFields {} pattern.tokens pieces with
      | error limit =>
        rw [read_of_digitLimit inside _ taken values] at h
        cases h
      | ok result => exact short_of_readFields split values
    rw [read_of_split? inside offset taken split short] at h
    obtain ⟨utc, converted, rfl⟩ := Option.map_eq_some_iff.1 (Except.ok.inj h)
    have valid : (writtenValues pattern.tokens pieces).Valid := by
      by_contra refused
      rw [FieldValues.toUtc?_of_not_valid offset refused] at converted
      cases converted
    rw [FieldValues.toUtc?_of_valid offset valid] at converted
    exact ⟨pieces, split, short, valid, utc, Reading.micros_of_ofMicros? converted, rfl⟩

end Almanac.DatePattern
