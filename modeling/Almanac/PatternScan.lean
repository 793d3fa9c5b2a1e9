import Almanac.DatePattern

/-!
Patterns read by one scan from left to right that looks no further ahead than to the next quote.
Main statements: the tokens of all matches in a text are those of its scan, and hold no field of
width zero and no two neighbouring fields of one letter.
-/

namespace Almanac

namespace PatternField

def letter : PatternField → Char
  | year => 'y'
  | month => 'M'
  | day => 'd'
  | hour => 'H'
  | minute => 'm'
  | second => 's'
  | milli => 'S'

theorem eq_letter_of_ofLetter? {c : Char} {field : PatternField} (h : ofLetter? c = some field) :
    c = field.letter := by
  unfold ofLetter? at h
  split at h <;> cases h <;> rfl

theorem isAlpha_of_ofLetter? {c : Char} {field : PatternField} (h : ofLetter? c = some field) :
    c.isAlpha := by
  rw [eq_letter_of_ofLetter? h]
  cases field <;> rfl

end PatternField

namespace DatePattern

inductive Place where
  | outside
  /-- Just behind an opening quote, where a quote that is not doubled stands for itself. -/
  | opened
  | quoted
deriving DecidableEq, Repr

def consLetter (field : PatternField) : List PatternToken → List PatternToken
  | .field next width :: rest =>
    if next = field then .field field (width + 1) :: rest
    else .field field 1 :: .field next width :: rest
  | rest => .field field 1 :: rest

def scan : Place → Text → Except PatternError (List PatternToken)
  | .outside, [] => .ok []
  | _, [] => .error .unterminatedQuote
  | .outside, c :: rest =>
    if c = '\'' then scan .opened rest
    else if c.isAlpha then
      match PatternField.ofLetter? c with
      | some field => (scan .outside rest).map (consLetter field)
      | none => .error (.illegalLetter c)
    else (scan .outside rest).map (.literal c :: ·)
  | _, '\'' :: '\'' :: rest => (scan .quoted rest).map (.literal '\'' :: ·)
  | .opened, '\'' :: rest => (scan .outside rest).map (.literal '\'' :: ·)
  | .quoted, '\'' :: rest => scan .outside rest
  | _, c :: rest => (scan .quoted rest).map (.literal c :: ·)

theorem map_map_result {α β γ ε : Type} (x : Except ε α) (f : α → β) (g : β → γ) :
    (x.map f).map g = x.map fun a => g (f a) := by
  cases x <;> rfl

section
variable {place : Place} (inside : place ≠ .outside)
include inside

theorem scan_inside_nil : scan place [] = .error .unterminatedQuote := by
  cases place with
  | outside => exact absurd rfl inside
  | _ => rfl

theorem scan_inside_pair (rest : Text) :
    scan place ('\'' :: '\'' :: rest) = (scan .quoted rest).map (.literal '\'' :: ·) := by
  rw [scan]
  exact inside

theorem scan_inside_cons {c : Char} (other : c ≠ '\'') (rest : Text) :
    scan place (c :: rest) = (scan .quoted rest).map (.literal c :: ·) := by
  rw [scan]
  · exact fun _ quote _ => other quote
  · exact inside
  · exact fun _ => other
  · exact fun _ => other

theorem scan_of_body?_none {text : Text} (h : Lexeme.body? text = none) :
    scan place text = .error .unterminatedQuote := by
  fun_induction Lexeme.body? text generalizing place with
  | case1 => cases h
  | case2 => cases h
  | case3 => cases h
  | case4 c rest _ other ih =>
    rw [scan_inside_cons inside other, ih (by decide) (by simpa using h)]
    rfl
  | case5 => exact scan_inside_nil inside

end

theorem scan_outside_quote (rest : Text) : scan .outside ('\'' :: rest) = scan .opened rest := by
  rw [scan, if_pos rfl]

theorem map_nil_append {α ε : Type} (x : Except ε (List α)) : x.map ([] ++ ·) = x := by
  cases x <;> rfl

theorem undouble_cons {c : Char} (other : c ≠ '\'') (body : Text) :
    Lexeme.undouble (c :: body) = c :: Lexeme.undouble body := by
  rw [Lexeme.undouble]
  exact fun _ same => absurd same other

theorem scan_quoted_of_body? {text body : Text} (h : Lexeme.body? text = some body) :
    scan .quoted text = (scan .outside (text.drop (body.length + 1))).map
      ((Lexeme.undouble body).map .literal ++ ·) := by
  fun_induction Lexeme.body? text generalizing body with
  | case1 rest body' found ih =>
    cases h
    rw [scan_inside_pair (by decide), ih found, map_map_result]
    rfl
  | case2 rest open' =>
    -- nothing closes the text behind a pair, so that its first quote closes the text before it
    cases h
    change _ = (scan .outside ('\'' :: rest)).map ([] ++ ·)
    rw [map_nil_append, scan_outside_quote, scan_inside_pair (by decide),
      scan_of_body?_none (by decide) open', scan_of_body?_none (by decide) open']
    rfl
  | case3 rest single =>
    cases h
    rw [scan]
    · exact (map_nil_append _).symm
    · exact single
  | case4 c rest _ other ih =>
    obtain ⟨body', found, rfl⟩ := Option.map_eq_some_iff.1 h
    rw [scan_inside_cons (by decide) other, ih found, map_map_result, undouble_cons other]
    rfl
  | case5 => cases h

theorem scan_opened_of_body? {text body : Text} (h : Lexeme.body? text = some body) :
    scan .opened text = (scan .outside (text.drop (body.length + 1))).map
      ((Lexeme.literal body).map .literal ++ ·) := by
  have quoted := scan_quoted_of_body? h
  fun_induction Lexeme.body? text generalizing body with
  | case1 rest body' =>
    cases h
    rw [scan_inside_pair (by decide)] at quoted ⊢
    exact quoted
  | case2 rest open' =>
    cases h
    change _ = (scan .outside ('\'' :: rest)).map _
    rw [scan_outside_quote, scan_inside_pair (by decide), scan_of_body?_none (by decide) open',
      scan_of_body?_none (by decide) open']
    rfl
  | case3 rest single =>
    cases h
    rw [scan]
    · rfl
    · exact single
  | case4 c rest _ other =>
    obtain ⟨body', -, rfl⟩ := Option.map_eq_some_iff.1 h
    have literal : Lexeme.literal (c :: body') = Lexeme.undouble (c :: body') := by
      rw [Lexeme.literal, undouble_cons other, if_neg (List.cons_ne_nil _ _)]
    rw [scan_inside_cons (by decide) other] at quoted ⊢
    rw [literal, quoted]
  | case5 => cases h

theorem literal_ne_nil (body : Text) : Lexeme.literal body ≠ [] := by
  unfold Lexeme.literal
  split
  · exact List.cons_ne_nil _ _
  · next nonempty => exact nonempty

theorem exists_literal_of_scan_opened {text : Text} {tokens : List PatternToken}
    (h : scan .opened text = .ok tokens) : ∃ c rest, tokens = .literal c :: rest := by
  cases found : Lexeme.body? text with
  | none =>
    rw [scan_of_body?_none (by decide) found] at h
    cases h
  | some body =>
    obtain ⟨c, literal, nonempty⟩ := List.exists_cons_of_ne_nil (literal_ne_nil body)
    rw [scan_opened_of_body? found, nonempty] at h
    obtain ⟨behind, -, rfl⟩ := exists_of_map_ok h
    exact ⟨c, _, rfl⟩

theorem scan_outside_letter {c : Char} {field : PatternField}
    (letter : PatternField.ofLetter? c = some field) (rest : Text) :
    scan .outside (c :: rest) = (scan .outside rest).map (consLetter field) := by
  have other : c ≠ '\'' := by
    rintro rfl
    cases letter
  rw [scan, if_neg other, if_pos (PatternField.isAlpha_of_ofLetter? letter), letter]

theorem scan_outside_cons {c : Char} (other : c ≠ '\'') (noAlpha : ¬c.isAlpha) (rest : Text) :
    scan .outside (c :: rest) = (scan .outside rest).map (.literal c :: ·) := by
  rw [scan, if_neg other, if_neg noAlpha]

theorem head?_consLetter (field : PatternField) (tokens : List PatternToken) :
    ∃ width, (consLetter field tokens).head? = some (.field field width) := by
  unfold consLetter
  split
  · split
    · exact ⟨_, rfl⟩
    · exact ⟨_, rfl⟩
  · exact ⟨_, rfl⟩

theorem consLetter_of_head? {field : PatternField} {tokens : List PatternToken}
    (h : ∀ width, tokens.head? ≠ some (.field field width)) :
    consLetter field tokens = .field field 1 :: tokens := by
  unfold consLetter
  split
  · next next width rest =>
    split
    · next same =>
      subst same
      exact absurd rfl (h width)
    · rfl
  · rfl

theorem head?_of_scan {text : Text} {tokens : List PatternToken} {field : PatternField}
    {width : Nat} (h : scan .outside text = .ok tokens)
    (first : tokens.head? = some (.field field width)) : text.head? = some field.letter := by
  cases text with
  | nil =>
    cases h
    cases first
  | cons c rest =>
    by_cases quote : c = '\''
    · subst quote
      rw [scan_outside_quote] at h
      obtain ⟨c, behind, rfl⟩ := exists_literal_of_scan_opened h
      cases first
    by_cases alpha : c.isAlpha
    · cases known : PatternField.ofLetter? c with
      | none =>
        rw [scan, if_neg quote, if_pos alpha, known] at h
        cases h
      | some next =>
        rw [scan_outside_letter known] at h
        obtain ⟨behind, -, rfl⟩ := exists_of_map_ok h
        obtain ⟨run, head⟩ := head?_consLetter next behind
        cases head.symm.trans first
        rw [PatternField.eq_letter_of_ofLetter? known]
        rfl
    · rw [scan_outside_cons quote alpha] at h
      obtain ⟨behind, -, rfl⟩ := exists_of_map_ok h
      cases first

theorem scan_letters {letter : Char} {field : PatternField}
    (known : PatternField.ofLetter? letter = some field) (rest : Text) :
    scan .outside (letter :: rest) =
      (scan .outside (rest.dropWhile (· = letter))).map
        (.field field ((rest.takeWhile (· = letter)).length + 1) :: ·) := by
  rw [scan_outside_letter known]
  -- each letter more makes the field of the ones behind it wider
  induction rest with
  | nil => rfl
  | cons c rest ih =>
    by_cases same : c = letter
    · subst same
      rw [scan_outside_letter known, ih, map_map_result]
      simp [consLetter]
    · cases found : scan .outside (c :: rest) with
      | error e => simp [same, found, Except.map]
      | ok tokens =>
        have alone : consLetter field tokens = .field field 1 :: tokens := by
          refine consLetter_of_head? fun width first => same ?_
          have head := head?_of_scan found first
          rw [← PatternField.eq_letter_of_ofLetter? known] at head
          exact Option.some.inj head
        simp [same, found, Except.map, alone]

theorem drop_length_takeWhile {α : Type} (p : α → Bool) (items : List α) :
    items.drop (items.takeWhile p).length = items.dropWhile p := by
  have behind : (items.takeWhile p ++ items.dropWhile p).drop (items.takeWhile p).length =
      items.dropWhile p := List.drop_left
  rwa [List.takeWhile_append_dropWhile] at behind

theorem first?_quote (rest : Text) : Lexeme.first? ('\'' :: rest) =
    some (((Lexeme.body? rest).map .quoted).getD .stray) := by
  have noLetter : '\''.isAlpha = false := by decide
  cases found : Lexeme.body? rest <;>
    simp [Lexeme.first?, Lexeme.quoted?, Lexeme.letters?, Lexeme.single?, Lexeme.stray?, found,
      noLetter]

theorem first?_of_ne {c : Char} (other : c ≠ '\'') (rest : Text) : Lexeme.first? (c :: rest) =
    some (if c.isAlpha then .letters c ((rest.takeWhile (· = c)).length + 1) else .single c) := by
  have notQuoted : Lexeme.quoted? (c :: rest) = none := by
    rw [Lexeme.quoted?]
    exact fun _ same => absurd (List.cons.inj same).1 other
  by_cases alpha : c.isAlpha <;>
    simp [Lexeme.first?, notQuoted, Lexeme.letters?, Lexeme.single?, other, alpha]

theorem exists_first? (c : Char) (rest : Text) : ∃ lexeme, Lexeme.first? (c :: rest) = some lexeme ∧
    scan .outside (c :: rest) = lexeme.tokens.bind fun front =>
      (scan .outside (rest.drop (lexeme.length - 1))).map (front ++ ·) := by
  by_cases quote : c = '\''
  · subst quote
    refine ⟨_, first?_quote rest, ?_⟩
    rw [scan_outside_quote]
    cases found : Lexeme.body? rest with
    | none => exact scan_of_body?_none (by decide) found
    | some body => exact scan_opened_of_body? found
  · refine ⟨_, first?_of_ne quote rest, ?_⟩
    by_cases alpha : c.isAlpha
    · rw [if_pos alpha, Lexeme.tokens]
      cases known : PatternField.ofLetter? c with
      | none =>
        rw [scan, if_neg quote, if_pos alpha, known]
        rfl
      | some field =>
        rw [scan_letters known, ← drop_length_takeWhile]
        rfl
    · rw [if_neg alpha]
      exact scan_outside_cons quote alpha rest

theorem allTokens_behind (taken : Nat) (text : Text) :
    Lexeme.allTokens (Lexeme.behind taken text) = scan .outside (text.drop taken) := by
  induction text generalizing taken with
  | nil => simp [Lexeme.behind, Lexeme.allTokens, scan]
  | cons c rest ih =>
    cases taken with
    | succ taken => exact ih taken
    | zero =>
      obtain ⟨lexeme, found, scanned⟩ := exists_first? c rest
      rw [Lexeme.behind, found, List.drop_zero, scanned, ← ih]
      rfl

/-- A pattern is accepted, and read, as one scan from left to right does. -/
theorem ofText_eq_scan (text : Text) :
    ofText text = (scan .outside text).map fun tokens => ⟨text, tokens⟩ := by
  rw [ofText, allTokens_behind, List.drop_zero]

theorem separate_consLetter {field : PatternField} {tokens : List PatternToken}
    (h : Separate tokens) : Separate (consLetter field tokens) := by
  match tokens with
  | [] => simp [consLetter, Separate]
  | .literal c :: rest => simpa [consLetter, Separate] using h
  | .field next width :: rest =>
    by_cases same : next = field
    · subst same
      simpa [consLetter, Separate] using h.2
    · simpa [consLetter, Separate, same] using h

theorem separate_of_scan {place : Place} {text : Text} {tokens : List PatternToken}
    (h : scan place text = .ok tokens) : Separate tokens := by
  fun_induction scan place text generalizing tokens with
  | case1 => simp_all [Separate]
  | case2 => cases h
  | case3 _ ih => exact ih h
  | case4 _ _ _ _ _ _ ih =>
    obtain ⟨rest, eq, rfl⟩ := exists_of_map_ok h
    exact separate_consLetter (ih eq)
  | case5 => cases h
  | case9 _ _ ih => exact ih h
  | _ =>
    rename_i ih
    obtain ⟨rest, eq, rfl⟩ := exists_of_map_ok h
    show Separate rest
    exact ih eq

theorem separate_of_ofText {text : Text} {pattern : DatePattern} (h : ofText text = .ok pattern) :
    Separate pattern.tokens := by
  rw [ofText_eq_scan] at h
  obtain ⟨tokens, eq, rfl⟩ := exists_of_map_ok h
  exact separate_of_scan eq

end DatePattern

end Almanac
