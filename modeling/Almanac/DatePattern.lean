import Almanac.Quoted

/-!
Patterns of date and time text. A run of one field letter stands for a number, text between single
quotes and every character that is no letter for itself. Two single quotes side by side stand for
one of them. A pattern is cut up by an expression whose matches are taken one behind the other. Main
statement: quoted text is the longest one, of pairs of quotes and other characters, that a quote
ends.
-/

namespace Almanac

inductive PatternField where
  | year | month | day | hour | minute | second | milli
deriving DecidableEq, Repr

namespace PatternField

def ofLetter? : Char → Option PatternField
  | 'y' => some year
  | 'M' => some month
  | 'd' => some day
  | 'H' => some hour
  | 'm' => some minute
  | 's' => some second
  | 'S' => some milli
  | _ => none

end PatternField

inductive PatternToken where
  /-- A run of field letters, of the given length. -/
  | field (field : PatternField) (width : Nat)
  | literal (c : Char)
deriving DecidableEq, Repr

inductive PatternError where
  | unterminatedQuote
  | illegalLetter (letter : Char)
deriving DecidableEq, Repr

def PatternError.message (error : PatternError) (pattern : Text) : Text :=
  match error with
  | unterminatedQuote => "Unterminated quote in pattern ".toList ++ Quoted.quote pattern
  | illegalLetter letter =>
    "Illegal pattern character ".toList ++ Quoted.quote [letter] ++ " in ".toList ++
      Quoted.quote pattern

structure DatePattern where
  text : Text
  tokens : List PatternToken
deriving DecidableEq, Repr

/-- What one match of the expression `'((?:[^']|'')*)'|([A-Za-z])\2*|([^'])|(')` holds, by the
alternative that matched. -/
inductive Lexeme where
  /-- The text between two quotes, as it stands there. -/
  | quoted (body : Text)
  | letters (letter : Char) (count : Nat)
  | single (c : Char)
  | stray
deriving DecidableEq, Repr

namespace Lexeme

/-- What stands between an opening quote, which the text is behind, and its closing one. Quotes in
pairs and all other characters are taken as far as they go. If no quote closes what is taken then,
they are given back one by one, the last first: a pair that is given back closes with its first. -/
def body? : Text → Option Text
  | '\'' :: '\'' :: rest =>
    match body? rest with
    | some body => some ('\'' :: '\'' :: body)
    | none => some []
  | '\'' :: _ => some []
  | c :: rest => (body? rest).map (c :: ·)
  | [] => none

inductive Paired : Text → Prop where
  | nil : Paired []
  | char {c : Char} {rest : Text} (other : c ≠ '\'') (paired : Paired rest) : Paired (c :: rest)
  | pair {rest : Text} (paired : Paired rest) : Paired ('\'' :: '\'' :: rest)

/-- What a quote closes at the start of a text. -/
def Closed (text body : Text) : Prop := Paired body ∧ body ++ ['\''] <+: text

theorem not_closed_nil (body : Text) : ¬Closed [] body := by
  rintro ⟨-, closing⟩
  simp at closing

theorem closed_pair_iff {rest body : Text} : Closed ('\'' :: '\'' :: rest) body ↔
    body = [] ∨ ∃ inner, body = '\'' :: '\'' :: inner ∧ Closed rest inner := by
  constructor
  · rintro ⟨paired, closing⟩
    cases paired with
    | nil => exact .inl rfl
    | char other paired => exact absurd (List.cons_prefix_cons.1 closing).1 other
    | pair paired => exact .inr ⟨_, rfl, paired, by simpa using closing⟩
  · rintro (rfl | ⟨inner, rfl, paired, closing⟩)
    · exact ⟨.nil, by simp⟩
    · exact ⟨.pair paired, by simpa using closing⟩

theorem closed_single_iff {rest body : Text} (single : ∀ more, rest = '\'' :: more → False) :
    Closed ('\'' :: rest) body ↔ body = [] := by
  constructor
  · rintro ⟨paired, closing⟩
    cases paired with
    | nil => rfl
    | char other paired => exact absurd (List.cons_prefix_cons.1 closing).1 other
    | pair paired =>
      obtain ⟨behind, same⟩ := closing
      exact (single _ (List.cons.inj same).2.symm).elim
  · rintro rfl
    exact ⟨.nil, by simp⟩

theorem closed_cons_iff {c : Char} {rest body : Text} (other : c ≠ '\'') :
    Closed (c :: rest) body ↔ ∃ inner, body = c :: inner ∧ Closed rest inner := by
  constructor
  · rintro ⟨paired, closing⟩
    cases paired with
    | nil => exact absurd (List.cons_prefix_cons.1 closing).1.symm other
    | char _ paired =>
      obtain ⟨rfl, behind⟩ := List.cons_prefix_cons.1 closing
      exact ⟨_, rfl, paired, behind⟩
    | pair paired => exact absurd (List.cons_prefix_cons.1 closing).1.symm other
  · rintro ⟨inner, rfl, paired, closing⟩
    exact ⟨.char other paired, by simpa using closing⟩

theorem body?_eq_none {text : Text} (h : body? text = none) (body : Text) : ¬Closed text body := by
  fun_induction body? text generalizing body with
  | case4 c rest _ other ih =>
    rw [closed_cons_iff other]
    rintro ⟨inner, -, closed⟩
    exact ih (by simpa using h) inner closed
  | case5 => exact not_closed_nil body
  | _ => cases h

theorem body?_longest {text body : Text} (h : body? text = some body) :
    Closed text body ∧ ∀ other, Closed text other → other.length ≤ body.length := by
  fun_induction body? text generalizing body with
  | case1 rest inner found ih =>
    cases h
    obtain ⟨closed, longest⟩ := ih found
    refine ⟨closed_pair_iff.2 (.inr ⟨inner, rfl, closed⟩), fun other closed => ?_⟩
    obtain rfl | ⟨inner', rfl, closed'⟩ := closed_pair_iff.1 closed
    · exact Nat.zero_le _
    · exact Nat.add_le_add_right (longest inner' closed') 2
  | case2 rest open' =>
    cases h
    refine ⟨closed_pair_iff.2 (.inl rfl), fun other closed => ?_⟩
    obtain rfl | ⟨inner', -, closed'⟩ := closed_pair_iff.1 closed
    · exact Nat.le_refl _
    · exact absurd closed' (body?_eq_none open' inner')
  | case3 rest single =>
    cases h
    refine ⟨(closed_single_iff single).2 rfl, fun other closed => ?_⟩
    have empty := (closed_single_iff single).1 closed
    exact Nat.le_of_eq (congrArg List.length empty)
  | case4 c rest _ other ih =>
    obtain ⟨inner, found, rfl⟩ := Option.map_eq_some_iff.1 h
    obtain ⟨closed, longest⟩ := ih found
    refine ⟨(closed_cons_iff other).2 ⟨inner, rfl, closed⟩, fun text closed => ?_⟩
    obtain ⟨inner', rfl, closed'⟩ := (closed_cons_iff other).1 closed
    exact Nat.succ_le_succ (longest inner' closed')
  | case5 => cases h

def quoted? : Text → Option Lexeme
  | '\'' :: rest => (body? rest).map quoted
  | _ => none

def letters? : Text → Option Lexeme
  | c :: rest =>
    if c.isAlpha then some (letters c ((rest.takeWhile (· = c)).length + 1)) else none
  | [] => none

def single? : Text → Option Lexeme
  | c :: _ => if c = '\'' then none else some (single c)
  | [] => none

def stray? : Text → Option Lexeme
  | '\'' :: _ => some stray
  | _ => none

def first? (text : Text) : Option Lexeme :=
  quoted? text <|> letters? text <|> single? text <|> stray? text

def length : Lexeme → Nat
  | quoted body => body.length + 2
  | letters _ count => count
  | single _ => 1
  | stray => 1

/-- The matches in a text, behind a number of characters that belong to the one before. -/
def behind : Nat → Text → List Lexeme
  | _, [] => []
  | taken + 1, _ :: rest => behind taken rest
  | 0, c :: rest =>
    match first? (c :: rest) with
    | some lexeme => lexeme :: behind (lexeme.length - 1) rest
    | none => behind 0 rest

/-- Replaces two quotes side by side by one, from left to right. -/
def undouble : Text → Text
  | '\'' :: '\'' :: rest => '\'' :: undouble rest
  | c :: rest => c :: undouble rest
  | [] => []

/-- What quoted text stands for; two quotes with nothing between them stand for one. -/
def literal (body : Text) : Text := if undouble body = [] then ['\''] else undouble body

def tokens : Lexeme → Except PatternError (List PatternToken)
  | quoted body => .ok ((literal body).map .literal)
  | letters letter count =>
    match PatternField.ofLetter? letter with
    | some field => .ok [.field field count]
    | none => .error (.illegalLetter letter)
  | single c => .ok [.literal c]
  | stray => .error .unterminatedQuote

def allTokens : List Lexeme → Except PatternError (List PatternToken)
  | [] => .ok []
  | lexeme :: rest => do
    let front ← lexeme.tokens
    let back ← allTokens rest
    return front ++ back

end Lexeme

namespace DatePattern

/-- Reads a pattern. The expression that is made of its tokens to match texts repeats a digit as
often as a run in front of another field has letters; 4294967295 repetitions are an overflow there.
Patterns are taken to have shorter runs. -/
def ofText (text : Text) : Except PatternError DatePattern :=
  (Lexeme.allTokens (Lexeme.behind 0 text)).map fun tokens => ⟨text, tokens⟩

theorem exists_of_map_ok {α β ε : Type} {f : α → β} {x : Except ε α} {y : β}
    (h : x.map f = .ok y) : ∃ a, x = .ok a ∧ f a = y := by
  cases x with
  | error e => cases h
  | ok a => exact ⟨a, rfl, by simpa [Except.map] using h⟩

def date : Text := "yyyy-MM-dd".toList
def time : Text := "HH:mm:ss".toList
def timestamp : Text := date ++ ' ' :: time

example : (ofText timestamp).map (·.tokens) =
    .ok [.field .year 4, .literal '-', .field .month 2, .literal '-', .field .day 2, .literal ' ',
      .field .hour 2, .literal ':', .field .minute 2, .literal ':', .field .second 2] := rfl

example : (ofText "''''".toList).map (·.tokens) = .ok [.literal '\''] := rfl

/-- A pattern's tokens alternate: neighbouring runs have different letters, and none is empty. -/
def Separate : List PatternToken → Prop
  | [] => True
  | .literal _ :: rest => Separate rest
  | .field field width :: rest =>
    1 ≤ width ∧ (∀ width', rest.head? ≠ some (.field field width')) ∧ Separate rest

end DatePattern

end Almanac
