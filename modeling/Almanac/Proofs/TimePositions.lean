import Almanac.Proofs.TimeComponents

/-! Times read by positions. A reader that keeps to the whole literal, and finds each separator from
the position of the one before, cuts the same components as one that begins with the text from its
start on: a position found in that text is the same place of the literal, and no separator in front
of the start is found, wherever the start is. Main statement: what is read from a position, a
negative one or one behind the end included, is what the text from there on is read as, with the
same error but for the literal that it names. -/

namespace Almanac.Text

def place (text : Text) (position : Int) : Nat :=
  if position < 0 then (text.length + position).toNat else min position.toNat text.length

def slice (text : Text) (first last : Int) : Text :=
  (text.take (place text last)).drop (place text first)

def positionFrom? (separator : Char) (text : Text) (start : Int) : Option Nat :=
  ((text.drop (place text start)).idxOf? separator).map (place text start + ·)

theorem place_le_length (text : Text) (position : Int) : place text position ≤ text.length := by
  unfold place
  split <;> omega

theorem place_natCast {text : Text} {position : Nat} (h : position ≤ text.length) :
    place text position = position := by
  rw [place, if_neg (by omega), Int.toNat_natCast, min_eq_left h]

theorem suffixFrom_eq_drop (text : Text) (position : Int) :
    text.suffixFrom position = text.drop (place text position) := by
  unfold suffixFrom place
  split
  · rfl
  · rw [← List.drop_eq_drop_min]

theorem idxOf?_append {separator : Char} {before : Text} (after : Text) (h : separator ∉ before) :
    (before ++ separator :: after).idxOf? separator = some before.length := by
  induction before with
  | nil => simp [List.idxOf?_cons]
  | cons c rest ih =>
    simp only [List.mem_cons, not_or] at h
    simp [List.idxOf?_cons, Ne.symm h.1, ih h.2]

theorem suffixFrom_append {front rest : Text} {position : Nat} (h : front.length = position) :
    Text.suffixFrom (front ++ rest) position = rest := by
  rw [suffixFrom_natCast, List.drop_left' h]

theorem slice_append {front piece rest : Text} {start : Int} {position : Nat}
    (h : place (front ++ piece ++ rest) start = front.length)
    (h' : (front ++ piece).length = position) :
    slice (front ++ piece ++ rest) start position = piece := by
  have inside : position ≤ (front ++ piece ++ rest).length := by
    rw [List.length_append, h']
    exact Nat.le_add_right _ _
  rw [slice, place_natCast inside, h, List.take_left' h', List.drop_left' rfl]

section
variable {separator : Char} {text : Text} {start : Int}

theorem positionFrom?_eq_none (h : separator ∉ text.suffixFrom start) :
    positionFrom? separator text start = none := by
  rw [suffixFrom_eq_drop] at h
  rw [positionFrom?, List.idxOf?_eq_none_iff.2 h, Option.map_none]

theorem exists_positionFrom? {before after : Text}
    (same : text.suffixFrom start = before ++ separator :: after) (h : separator ∉ before) :
    ∃ position : Nat, positionFrom? separator text start = some position ∧
      slice text start position = before ∧ text.suffixFrom position = separator :: after ∧
      text.suffixFrom (position + 1) = after := by
  rw [suffixFrom_eq_drop] at same
  obtain ⟨front, whole, length⟩ : ∃ front, text = front ++ (before ++ separator :: after) ∧
      place text start = front.length :=
    ⟨text.take (place text start), by rw [← same, List.take_append_drop],
      (List.length_take_of_le (place_le_length text start)).symm⟩
  refine ⟨place text start + before.length, ?_, ?_, ?_, ?_⟩
  · rw [positionFrom?, same, idxOf?_append after h, Option.map_some]
  · rw [← List.append_assoc] at whole
    rw [length]
    rw [whole] at length ⊢
    exact slice_append length List.length_append
  · rw [length, whole, ← List.append_assoc]
    exact suffixFrom_append List.length_append
  · have split : front ++ (before ++ separator :: after) =
        front ++ before ++ [separator] ++ after := by
      simp only [List.append_assoc, List.singleton_append]
    rw [length, whole, split, ← Nat.cast_succ]
    exact suffixFrom_append (by simp only [List.length_append, List.length_singleton])

theorem slice_succ {c : Char} {rest : Text} {position : Nat}
    (h : text.suffixFrom position = c :: rest) (last : Int) :
    slice text (position + 1) last = (slice text position last).tail := by
  have inside : position < text.length := by
    rw [suffixFrom_natCast] at h
    rw [← List.drop_eq_nil_iff.not.trans not_le, h]
    exact List.cons_ne_nil _ _
  rw [slice, slice, ← Nat.cast_succ, place_natCast inside, place_natCast inside.le, List.tail_drop]

end

end Almanac.Text

namespace Almanac.Literal

/-- Reads a time from a position of a literal on, by the positions of its separators. -/
def readTimeAt (literal : Text) (start : Int) : Except ReadError Int :=
  match Text.positionFrom? ':' literal start with
  | none => do
    let hour ← readComponent literal (literal.suffixFrom start)
    return Timestamp.clockMillis hour 0 0
  | some colon => do
    let hour ← readComponent literal (Text.slice literal start colon)
    match Text.positionFrom? ':' literal (colon + 1) with
    | none => do
      let minute ← readComponent literal (literal.suffixFrom (colon + 1))
      return Timestamp.clockMillis hour minute 0
    | some colon' => do
      let minute ← readComponent literal (Text.slice literal (colon + 1) colon')
      match Text.positionFrom? '.' literal colon' with
      | none => do
        let second ← readComponent literal (literal.suffixFrom (colon' + 1))
        return Timestamp.clockMillis hour minute second
      | some point => do
        let second ← readComponent literal (Text.slice literal (colon' + 1) point)
        return Timestamp.clockMillis hour minute second +
          readFraction 2 (Text.strip (literal.suffixFrom (point + 1)))

theorem readComponents_cons_bind {α : Type} (literal component : Text) (rest : List Text)
    (f : List Int → Except ReadError α) :
    readComponents literal (component :: rest) >>= f =
      readComponent literal component >>= fun first =>
        readComponents literal rest >>= fun others => f (first :: others) := by
  simp only [readComponents, bind_assoc, pure_bind]

theorem readComponents_nil_bind {α : Type} (literal : Text) (f : List Int → Except ReadError α) :
    readComponents literal [] >>= f = f [] := rfl

theorem add_readFraction_nil (millis : Int) :
    millis + (readFraction 2 (Text.strip []) : Int) = millis :=
  Int.add_zero millis

theorem readTimeAt_eq_readTime (literal : Text) (start : Int) :
    readTimeAt literal start = readTime literal start := by
  obtain ⟨components, fraction, parts⟩ := exists_timeParts (literal.suffixFrom start)
  rw [readTime, readTimeOf, timeComponents_of_parts parts]
  generalize same : literal.suffixFrom start = text at parts
  simp only [readTimeAt]
  cases parts with
  | hour noColon =>
    subst same
    simp only [Text.positionFrom?_eq_none noColon, readComponents_cons_bind,
      readComponents_nil_bind, add_readFraction_nil]
    rfl
  | minute noColon noColon' =>
    obtain ⟨colon, found, hour, -, minute⟩ := Text.exists_positionFrom? same noColon
    rw [← minute] at noColon'
    simp only [found, hour, Text.positionFrom?_eq_none noColon', readComponents_cons_bind,
      readComponents_nil_bind, add_readFraction_nil, minute]
    rfl
  | @second _ _ second rest _ noColon noColon' noPoint behind =>
    rw [List.append_assoc, List.cons_append] at same
    obtain ⟨colon, found, hour, -, afterHour⟩ := Text.exists_positionFrom? same noColon
    obtain ⟨colon', found', minute, atColon, afterMinute⟩ :=
      Text.exists_positionFrom? afterHour noColon'
    -- the point is looked for from the second colon on, which is none
    have noPoint' : '.' ∉ ':' :: second := List.not_mem_cons_of_ne_of_not_mem (by decide) noPoint
    rcases behind with ⟨rfl, rfl⟩ | rfl
    · rw [List.append_nil] at atColon afterMinute
      have whole : Text.positionFrom? '.' literal colon' = none := by
        apply Text.positionFrom?_eq_none
        rw [atColon]
        exact noPoint'
      simp only [found, hour, found', minute, whole, afterMinute, readComponents_cons_bind,
        readComponents_nil_bind, add_readFraction_nil]
      rfl
    · rw [← List.cons_append] at atColon
      obtain ⟨point, found'', piece, -, fraction⟩ := Text.exists_positionFrom? atColon noPoint'
      have last := Text.slice_succ atColon point
      rw [piece, List.tail_cons] at last
      simp only [found, hour, found', minute, found'', last, fraction, readComponents_cons_bind,
        readComponents_nil_bind]
      rfl

/-- The outcome of reading a literal, told of another literal. -/
def renamed {α : Type} (literal : Text) (outcome : Except ReadError α) : Except ReadError α :=
  outcome.mapError fun error => ⟨literal, error.component⟩

section
variable {α β : Type} {literal component : Text} {outcome : Except ReadError α}

theorem renamed_bind {f g : α → Except ReadError β} (h : ∀ a, renamed literal (f a) = g a) :
    renamed literal (outcome >>= f) = renamed literal outcome >>= g := by
  cases outcome with
  | error error => rfl
  | ok a => exact h a

theorem renamed_eq_ok_iff {a : α} : renamed literal outcome = .ok a ↔ outcome = .ok a := by
  cases outcome <;> simp [renamed, Except.mapError]

theorem renamed_eq_error_iff {literal' : Text} (h : renamed literal' outcome = outcome) :
    renamed literal outcome = .error ⟨literal, component⟩ ↔
      outcome = .error ⟨literal', component⟩ := by
  cases outcome with
  | ok a => simp [renamed, Except.mapError]
  | error error =>
    simp only [renamed, Except.mapError, Except.error.injEq] at h ⊢
    rw [← h]
    simp only [ReadError.mk.injEq, true_and]

end

theorem renamed_readComponents (literal literal' : Text) (components : List Text) :
    renamed literal (readComponents literal' components) = readComponents literal components := by
  induction components with
  | nil => rfl
  | cons component rest ih =>
    have first : renamed literal (readComponent literal' component) =
        readComponent literal component := by
      unfold readComponent
      split <;> rfl
    rw [readComponents, readComponents, ← first]
    apply renamed_bind
    intro n
    rw [← ih]
    exact renamed_bind fun _ => rfl

theorem renamed_readTimeOf (literal literal' text : Text) :
    renamed literal (readTimeOf literal' text) = readTimeOf literal text := by
  rw [readTimeOf, readTimeOf]
  simp only [← renamed_readComponents literal literal']
  exact renamed_bind fun _ => rfl

/-- Wherever the start is, a time is read from it on as the text from there on is read as a literal
of its own; an error names the same component, and the whole literal in place of that text. -/
theorem readTimeAt_iff_readTimeAt_suffixFrom (literal : Text) (start : Int) :
    readTimeAt literal start = readTime literal start ∧
    (∀ time, readTimeAt literal start = .ok time ↔
      readTimeAt (literal.suffixFrom start) 0 = .ok time) ∧
    ∀ component, readTimeAt literal start = .error ⟨literal, component⟩ ↔
      readTimeAt (literal.suffixFrom start) 0 =
        .error ⟨literal.suffixFrom start, component⟩ := by
  refine ⟨readTimeAt_eq_readTime literal start, ?_⟩
  simp only [readTimeAt_eq_readTime, readTime]
  generalize literal.suffixFrom start = text
  rw [Text.suffixFrom_zero, ← renamed_readTimeOf literal text text]
  exact ⟨fun _ => renamed_eq_ok_iff, fun _ => renamed_eq_error_iff (renamed_readTimeOf _ _ _)⟩

end Almanac.Literal
