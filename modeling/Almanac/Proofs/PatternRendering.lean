import Almanac.PatternScan
import Almanac.Proofs.FieldValues
import Almanac.Proofs.GreatestSplit
import Almanac.Proofs.PaddedNumber

/-! Text written by a pattern, read again. Every field is written with zeros up to the width of its
run. If it fits there, a field that abuts on the next one is cut off behind its last digit; a field
that stands alone ends where no digit follows. By induction on the tokens the pieces that were
written are the ones found, whatever stands in front and behind. Main statement: the date-time
that was written is read, moved to UTC, if no run is wider than a number may be long. -/

namespace Almanac.DatePattern

def writeToken (values : FieldValues) : PatternToken → Text
  | .field field width => Numeral.zeroPadded width (values.get field)
  | .literal c => [c]

def render (tokens : List PatternToken) (values : FieldValues) : Text :=
  tokens.flatMap (writeToken values)

/-- No run ends at a digit of a literal, and a run that ends at another one has room for its
number. -/
structure Delimited (tokens : List PatternToken) (values : FieldValues) : Prop where
  noDigitBehind : ∀ field width c,
    [.field field width, .literal c] <:+: tokens → c.isDigit = false
  fits : ∀ field width next width',
    [.field field width, .field next width'] <:+: tokens →
      Numeral.digitCount (values.get field) ≤ width

theorem Delimited.tail {token : PatternToken} {tokens : List PatternToken} {values : FieldValues}
    (h : Delimited (token :: tokens) values) : Delimited tokens values where
  noDigitBehind field width c inside := h.noDigitBehind field width c (List.infix_cons inside)
  fits field width next width' inside :=
    h.fits field width next width' (List.infix_cons inside)

theorem longestPiece?_of_boundary {rest? : Text → Option (List Text)} {piece behind : Text}
    {pieces : List Text} (nonempty : piece ≠ []) (digits : ∀ c ∈ piece, c.isDigit)
    (boundary : ∀ c ∈ behind.head?, c.isDigit = false) (found : rest? behind = some pieces) :
    longestPiece? rest? (piece ++ behind) = some (piece, pieces) := by
  have stop : longestPiece? rest? behind = none := by
    cases behind with
    | nil => rfl
    | cons c behind =>
      have other := boundary c rfl
      rw [longestPiece?, other]
      rfl
  induction piece with
  | nil => exact absurd rfl nonempty
  | cons c piece ih =>
    simp only [List.mem_cons, forall_eq_or_imp] at digits
    rw [List.cons_append, longestPiece?, if_pos digits.1]
    by_cases single : piece = []
    · rw [single, List.nil_append, stop, found]
      rfl
    · rw [ih single digits.2]

theorem head?_not_digit_behind_run {values : FieldValues} {behind : Text} {field : PatternField}
    {width : Nat} {tokens : List PatternToken}
    (delimited : Delimited (.field field width :: tokens) values)
    (alone : ¬startsWithField tokens) (boundary : ∀ c ∈ behind.head?, c.isDigit = false) :
    ∀ c ∈ (render tokens values ++ behind).head?, c.isDigit = false := by
  cases tokens with
  | nil => exact boundary
  | cons token tokens =>
    cases token with
    | field next width' => exact absurd rfl alone
    | literal c =>
      intro first member
      cases member
      exact delimited.noDigitBehind field width c ⟨[], tokens, rfl⟩

theorem split?_render {values : FieldValues} {behind : Text} {tokens : List PatternToken}
    (natural : ∀ field, 0 ≤ values.get field) (delimited : Delimited tokens values)
    (boundary : ∀ c ∈ behind.head?, c.isDigit = false) :
    split? tokens (render tokens values ++ behind) = some (tokens.map (writeToken values)) := by
  induction tokens with
  | nil => rfl
  | cons token tokens ih =>
    have found := ih delimited.tail
    rw [render, List.flatMap_cons, List.append_assoc, ← render]
    cases token with
    | literal c => exact split?_literal found
    | field field width =>
      have digits : ∀ c ∈ writeToken values (.field field width), c.isDigit := fun c =>
        Numeral.isDigit_of_mem_zeroPadded (natural field)
      have nonempty : writeToken values (.field field width) ≠ [] :=
        Numeral.zeroPadded_ne_nil width _
      by_cases follows : startsWithField tokens
      · obtain ⟨next, width', rest, rfl⟩ := exists_of_startsWithField follows
        have room := delimited.fits field width next width' ⟨[], rest, rfl⟩
        have length : (writeToken values (.field field width)).length = width := by
          rw [writeToken, Numeral.length_zeroPadded width (natural field), max_eq_left room]
        exact split?_abutting follows length digits found
      · have stop := head?_not_digit_behind_run delimited follows boundary
        exact split?_alone follows (longestPiece?_of_boundary nonempty digits stop found)

theorem written?_render {values : FieldValues} (natural : ∀ field, 0 ≤ values.get field)
    (tokens : List PatternToken) (field : PatternField) :
    written? tokens (tokens.map (writeToken values)) field = some (values.get field) ∨
      (∀ width, .field field width ∉ tokens) ∧
        written? tokens (tokens.map (writeToken values)) field = none := by
  induction tokens with
  | nil => exact .inr ⟨fun width => List.not_mem_nil, rfl⟩
  | cons token tokens ih =>
    cases token with
    | literal c =>
      rcases ih with written | ⟨missing, none⟩
      · exact .inl written
      · exact .inr ⟨fun width => by simpa using missing width, none⟩
    | field here width =>
      rw [List.map_cons, written?_field, writeToken,
        Numeral.ofDigitChars_zeroPadded width (natural here), Int.natAbs_of_nonneg (natural here)]
      rcases ih with written | ⟨missing, none⟩
      · left
        rw [written, Option.some_or]
      · by_cases same : here = field
        · left
          rw [none, if_pos same, same, Option.none_or]
        · refine .inr ⟨fun width' => ?_, ?_⟩
          · have different : PatternToken.field field width' ≠ .field here width := by
              rintro ⟨⟩
              exact same rfl
            simp [different, missing width']
          · rw [none, if_neg same, Option.none_or]

theorem writtenValues_render {values : FieldValues} (natural : ∀ field, 0 ≤ values.get field)
    {tokens : List PatternToken}
    (absent : ∀ field, (∀ width, .field field width ∉ tokens) →
      values.get field = epochValue field) :
    writtenValues tokens (tokens.map (writeToken values)) = values := by
  apply FieldValues.ext_get
  intro field
  rw [FieldValues.get_writtenValues]
  rcases written?_render natural tokens field with written | ⟨missing, none⟩
  · rw [written, Option.getD_some]
  · rw [none, Option.getD_none, absent field missing]

theorem mem_runsOf_render {values : FieldValues} {tokens : List PatternToken}
    {field : PatternField} {piece : Text}
    (member : piece ∈ runsOf field tokens (tokens.map (writeToken values))) :
    ∃ width, .field field width ∈ tokens ∧ piece = Numeral.zeroPadded width (values.get field) := by
  induction tokens with
  | nil => cases member
  | cons token tokens ih =>
    cases token with
    | literal c =>
      obtain ⟨width, inside, same⟩ := ih member
      exact ⟨width, List.mem_cons_of_mem _ inside, same⟩
    | field here width =>
      rw [List.map_cons, runsOf_field] at member
      split at member
      · next same =>
        subst same
        rcases List.mem_cons.1 member with rfl | later
        · exact ⟨width, List.mem_cons_self, rfl⟩
        · obtain ⟨width', inside, same⟩ := ih later
          exact ⟨width', List.mem_cons_of_mem _ inside, same⟩
      · obtain ⟨width', inside, same⟩ := ih member
        exact ⟨width', List.mem_cons_of_mem _ inside, same⟩

namespace FieldValues

def ofReading (reading : Reading) : FieldValues :=
  ⟨reading.date.year, reading.date.month, reading.date.day, reading.time.hour,
    reading.time.minute, reading.time.second, reading.time.micro / 1000⟩

theorem valid_ofReading (reading : Reading) : (ofReading reading).Valid := by
  have year := reading.year_bounds
  obtain ⟨hour, minute, second, micro⟩ := reading.valid_time
  refine ⟨reading.valid_date, year, hour, minute, second, ?_⟩
  simp only [ofReading, microsPerSecond] at *
  omega

theorem micros_ofReading {reading : Reading} (whole : reading.micros % 1000 = 0) :
    (ofReading reading).micros = reading.micros := by
  have time : (ofReading reading).time = reading.time := by
    simp only [FieldValues.time, ofReading, Reading.time, ClockTime.ofMicros,
      ClockTime.mk.injEq, true_and, microsPerSecond, microsPerDay]
    omega
  rw [micros_eq, time, reading.micros_eq_fields]
  rfl

theorem Valid.get_bounds {values : FieldValues} (h : values.Valid) (field : PatternField) :
    0 ≤ values.get field ∧ values.get field < 10000 := by
  have days := daysInMonth_bounds values.year values.month
  obtain ⟨⟨low, high, first, last⟩, year, hour, minute, second, milli⟩ := h
  simp only [date] at low high first last
  cases field <;> simp only [get] <;> omega

end FieldValues

theorem short_render {values : FieldValues} (valid : values.Valid) {tokens : List PatternToken}
    (narrow : ∀ field width, .field field width ∈ tokens → width ≤ Numeral.maxDigits) :
    Short tokens (tokens.map (writeToken values)) := by
  intro field piece member
  obtain ⟨width, inside, rfl⟩ := mem_runsOf_render member
  obtain ⟨low, high⟩ := valid.get_bounds field
  have count : Numeral.digitCount (values.get field) ≤ 4 :=
    Numeral.digitCount_le (by omega) (by decide)
  rw [Numeral.length_zeroPadded width low]
  exact max_le (narrow field width inside) (count.trans (by decide))

theorem length_flatten_writeToken (tokens : List PatternToken) (values : FieldValues) :
    (tokens.map (writeToken values)).flatten.length = (render tokens values).length := by
  rw [render, List.flatMap_def]

/-- What a pattern writes for a clock reading is read back from between two texts: the reading of
UTC at that instant and the end of what was written, or nothing if UTC leaves the years 1..9999. -/
def ReadsBack (pattern : DatePattern) (reading : Reading) (offset : Int) (before behind : Text) :
    Prop :=
  let written := render pattern.tokens (.ofReading reading)
  (Reading.InYears (reading.micros - offset) →
    ∃ utc : Reading, utc.micros = reading.micros - offset ∧
      pattern.read (before ++ written ++ behind) before.length (.fixed offset) =
        .ok (some ⟨.ofUtc utc, (before.length + written.length : Nat)⟩)) ∧
  (¬Reading.InYears (reading.micros - offset) →
    pattern.read (before ++ written ++ behind) before.length (.fixed offset) = .ok none)

/-- Runs of one field write the same number, so that a pattern may have several of them. -/
theorem readsBack_of_delimited {source : Text} {pattern : DatePattern}
    (accepted : ofText source = .ok pattern) {reading : Reading}
    (whole : reading.micros % 1000 = 0)
    (narrow : ∀ field width, .field field width ∈ pattern.tokens → width ≤ 4300)
    (delimited : Delimited pattern.tokens (.ofReading reading))
    (absent : ∀ field, (∀ width, .field field width ∉ pattern.tokens) →
      (FieldValues.ofReading reading).get field = epochValue field)
    {behind : Text} (boundary : ∀ c ∈ behind.head?, c.isDigit = false) (before : Text)
    (offset : Int) : ReadsBack pattern reading offset before behind := by
  have valid := FieldValues.valid_ofReading reading
  have natural := fun field => (valid.get_bounds field).1
  have found := split?_render natural delimited boundary
  have text : (before ++ render pattern.tokens (.ofReading reading) ++ behind).drop before.length =
      render pattern.tokens (.ofReading reading) ++ behind := by
    rw [List.append_assoc, List.drop_left]
  have inside : before.length ≤
      (before ++ render pattern.tokens (.ofReading reading) ++ behind).length := by
    rw [List.append_assoc, List.length_append]
    omega
  have split := split_of_split? (separate_of_ofText accepted) found
  rw [← text] at found split
  simp only [ReadsBack]
  rw [read_of_split? inside offset found split (short_render valid narrow),
    writtenValues_render natural absent, FieldValues.toUtc?_of_valid offset valid,
    FieldValues.micros_ofReading whole, length_flatten_writeToken]
  constructor
  · intro years
    obtain ⟨utc, count, converted⟩ := Reading.ofMicros?_of_inYears years
    refine ⟨utc, count, ?_⟩
    rw [converted]
    rfl
  · intro outside
    rw [Reading.ofMicros?_of_not_inYears outside]
    rfl

theorem readsBack_of_delimited_abutting :
    ofText "yyyyMMdd".toList =
        .ok ⟨"yyyyMMdd".toList, [.field .year 4, .field .month 2, .field .day 2]⟩ ∧
      ∃ utc : Reading, utc.micros = 1456700400000000 ∧
        read ⟨"yyyyMMdd".toList, [.field .year 4, .field .month 2, .field .day 2]⟩
          "on 20160229 sharp".toList 3 (.fixed 3600000000) = .ok (some ⟨.ofUtc utc, 11⟩) := by
  have accepted : ofText "yyyyMMdd".toList =
      .ok ⟨"yyyyMMdd".toList, [.field .year 4, .field .month 2, .field .day 2]⟩ := rfl
  have values : FieldValues.ofReading ⟨1456704000000000, by decide, by decide⟩ =
      { year := 2016, month := 2, day := 29 } := by decide +kernel
  have readsBack : ReadsBack
      ⟨"yyyyMMdd".toList, [.field .year 4, .field .month 2, .field .day 2]⟩
      ⟨1456704000000000, by decide, by decide⟩ 3600000000 "on ".toList " sharp".toList := by
    refine readsBack_of_delimited accepted (by decide) ?_ ⟨?_, ?_⟩ ?_ (by simp) _ _
    · intro field width member
      simp only [List.mem_cons, PatternToken.field.injEq, List.not_mem_nil, or_false] at member
      rcases member with ⟨-, rfl⟩ | ⟨-, rfl⟩ | ⟨-, rfl⟩ <;> decide
    · intro field width c inside
      simp [List.infix_cons_iff] at inside
    · intro field width next width' inside
      rw [values]
      simp only [List.infix_cons_iff, List.cons_prefix_cons, PatternToken.field.injEq] at inside
      rcases inside with ⟨⟨rfl, rfl⟩, -⟩ | ⟨⟨rfl, rfl⟩, -⟩ | inside
      · decide
      · decide
      · simp at inside
    · intro field missing
      rw [values]
      cases field with
      | year => exact absurd List.mem_cons_self (missing 4)
      | month => exact absurd (by decide) (missing 2)
      | day => exact absurd (by decide) (missing 2)
      | _ => rfl
  obtain ⟨utc, instant, found⟩ := readsBack.1 (Reading.inYears_iff.2 (by decide))
  rw [values] at found
  exact ⟨accepted, utc, instant, found⟩

theorem scan_run {letter : Char} {field : PatternField}
    (known : PatternField.ofLetter? letter = some field) (alpha : letter.isAlpha) (more : Nat) :
    scan .outside (List.replicate (more + 1) letter) = .ok [.field field (more + 1)] := by
  have noQuote : letter ≠ '\'' := by
    rintro rfl
    cases alpha
  induction more with
  | zero => simp [scan, noQuote, alpha, known, Except.map, consLetter]
  | succ more ih =>
    rw [List.replicate_succ, scan, if_neg noQuote, if_pos alpha, known]
    simp only
    rw [ih]
    simp [Except.map, consLetter]

theorem delimited_single (token : PatternToken) (values : FieldValues) :
    Delimited [token] values where
  noDigitBehind _ _ _ inside := absurd inside.length_le (by simp)
  fits _ _ _ _ inside := absurd inside.length_le (by simp)

theorem read_render_of_wide_run {field : PatternField} {width : Nat} {values : FieldValues}
    (source : Text) (zone : Zone) (natural : ∀ field, 0 ≤ values.get field)
    (wide : Numeral.maxDigits < width) :
    read ⟨source, [.field field width]⟩ (render [.field field width] values) (0 : Nat) zone =
      .error .exceeded := by
  have noText : ∀ c ∈ ([] : Text).head?, c.isDigit = false := by simp
  have found := split?_render natural (delimited_single (.field field width) values) noText
  rw [List.append_nil] at found
  refine read_of_digitLimit (Nat.zero_le _) zone found ?_
  have long : Numeral.maxDigits < (Numeral.zeroPadded width (values.get field)).length := by
    rw [Numeral.length_zeroPadded _ (natural field)]
    exact wide.trans_le (le_max_left _ _)
  rw [List.map_singleton, writeToken, readFields, Numeral.readDigits?, if_pos long]

/-- 1970-01-01 00:00 has the value of every field that a pattern lacks, but a run of 4301 letters
writes the year with more digits than a number may have. -/
theorem not_readsBack_of_wide_run :
    ofText (List.replicate 4301 'y') =
        .ok ⟨List.replicate 4301 'y', [.field .year 4301]⟩ ∧
      DateTime.epoch.reading.micros % 1000 = 0 ∧
      Delimited [.field .year 4301] (.ofReading DateTime.epoch.reading) ∧
      (∀ field, (FieldValues.ofReading DateTime.epoch.reading).get field = epochValue field) ∧
      ¬ReadsBack ⟨List.replicate 4301 'y', [.field .year 4301]⟩ DateTime.epoch.reading 0 [] [] := by
  have accepted : ofText (List.replicate 4301 'y') =
      .ok ⟨List.replicate 4301 'y', [.field .year 4301]⟩ := by
    rw [ofText_eq_scan, scan_run rfl (by decide) 4300]
    rfl
  have values : FieldValues.ofReading DateTime.epoch.reading = {} := by decide +kernel
  have fields : ∀ field,
      (FieldValues.ofReading DateTime.epoch.reading).get field = epochValue field := by
    intro field
    rw [values, FieldValues.get_default]
  refine ⟨accepted, rfl, delimited_single _ _, fields, fun readsBack => ?_⟩
  have natural : ∀ field, 0 ≤ (FieldValues.ofReading DateTime.epoch.reading).get field := by
    intro field
    rw [fields]
    cases field <;> decide
  have wide : Numeral.maxDigits < 4301 := by decide
  have refused := @read_render_of_wide_run .year 4301 _ (List.replicate 4301 'y') (.fixed 0)
    natural wide
  have years : Reading.InYears (DateTime.epoch.reading.micros - 0) :=
    Reading.inYears_iff.2 (by decide)
  obtain ⟨utc, -, read⟩ := readsBack.1 years
  rw [List.append_nil, List.nil_append] at read
  cases refused.symm.trans read

end Almanac.DatePattern
