/-!
Text as a list of characters, and the cuts that readers of date and time text make. Positions
count characters. Main statements: `cutAt?` answers the one cut whose first piece lacks the
separator, `pieces` joined again give the text back, and `strip` removes nothing but blanks.
-/

namespace Almanac

abbrev Text := List Char

namespace Text

/-- The characters that count as space around a number or a timestamp. -/
def isBlank (c : Char) : Bool :=
  let n := c.toNat
  (0x09 ≤ n && n ≤ 0x0D) || (0x1C ≤ n && n ≤ 0x20) || n == 0x85 || n == 0xA0 || n == 0x1680 ||
    (0x2000 ≤ n && n ≤ 0x200A) || n == 0x2028 || n == 0x2029 || n == 0x202F || n == 0x205F ||
    n == 0x3000

theorem isBlank_of_isWhitespace {c : Char} (h : c.isWhitespace) : isBlank c := by
  simp only [Char.isWhitespace, Bool.or_eq_true, decide_eq_true_eq] at h
  rcases h with ((rfl | rfl) | rfl) | rfl <;> decide

def strip (text : Text) : Text :=
  ((text.dropWhile isBlank).reverse.dropWhile isBlank).reverse

theorem eq_append_strip_append (text : Text) :
    ∃ front back, text = front ++ strip text ++ back ∧ ∀ c ∈ front ++ back, isBlank c := by
  let rest := text.dropWhile isBlank
  refine ⟨text.takeWhile isBlank, (rest.reverse.takeWhile isBlank).reverse, ?_, ?_⟩
  · have behind : strip text ++ (rest.reverse.takeWhile isBlank).reverse = rest := by
      simp only [strip, ← List.reverse_append, List.takeWhile_append_dropWhile, rest,
        List.reverse_reverse]
    rw [List.append_assoc, behind, List.takeWhile_append_dropWhile]
  · intro c member
    rcases List.mem_append.1 member with h | h
    · exact List.all_eq_true.1 List.all_takeWhile c h
    · exact List.all_eq_true.1 List.all_takeWhile c (List.mem_reverse.1 h)

theorem strip_eq_self_of_ends {text : Text} (first : ∀ c ∈ text.head?, isBlank c = false)
    (last : ∀ c ∈ text.getLast?, isBlank c = false) : strip text = text := by
  have stays : ∀ cs : Text, (∀ c ∈ cs.head?, isBlank c = false) → cs.dropWhile isBlank = cs := by
    intro cs clean
    cases cs with
    | nil => rfl
    | cons c rest => simp [clean c (by simp)]
  have last' : ∀ c ∈ text.reverse.head?, isBlank c = false := by
    intro c member
    rw [List.head?_reverse] at member
    exact last c member
  rw [strip, stays text first, stays text.reverse last', List.reverse_reverse]

theorem strip_eq_self {text : Text} (h : ∀ c ∈ text, isBlank c = false) : strip text = text :=
  strip_eq_self_of_ends (fun c member => h c (List.mem_of_mem_head? member))
    (fun c member => h c (List.mem_of_mem_getLast? member))

def cutAt? (separator : Char) : Text → Option (Text × Text)
  | [] => none
  | c :: rest =>
    if c = separator then some ([], rest)
    else (cutAt? separator rest).map fun (before, after) => (c :: before, after)

theorem cutAt?_eq_none_iff {separator : Char} {text : Text} :
    cutAt? separator text = none ↔ separator ∉ text := by
  induction text with
  | nil => simp [cutAt?]
  | cons c rest ih =>
    by_cases h : c = separator
    · simp [cutAt?, h]
    · simp [cutAt?, h, ih, Ne.symm h]

theorem cutAt?_append {separator : Char} {before : Text} (after : Text)
    (h : separator ∉ before) :
    cutAt? separator (before ++ separator :: after) = some (before, after) := by
  induction before with
  | nil => simp [cutAt?]
  | cons c rest ih =>
    simp only [List.mem_cons, not_or] at h
    simp [cutAt?, Ne.symm h.1, ih h.2]

theorem eq_of_cutAt? {separator : Char} {text before after : Text}
    (h : cutAt? separator text = some (before, after)) :
    text = before ++ separator :: after ∧ separator ∉ before := by
  induction text generalizing before with
  | nil => simp [cutAt?] at h
  | cons c rest ih =>
    by_cases hc : c = separator
    · simp [cutAt?, hc] at h
      simp [h, hc]
    · simp only [cutAt?, hc, if_false, Option.map_eq_some_iff, Prod.mk.injEq, Prod.exists] at h
      obtain ⟨before', after', cut, rfl, rfl⟩ := h
      obtain ⟨rfl, outside⟩ := ih cut
      simp [outside, Ne.symm hc]

/-- The text cut at its first separators, at most the given number of them. -/
def pieces (separator : Char) : Nat → Text → List Text
  | 0, text => [text]
  | cuts + 1, text =>
    match cutAt? separator text with
    | none => [text]
    | some (before, after) => before :: pieces separator cuts after

theorem pieces_ne_nil (separator : Char) (cuts : Nat) (text : Text) :
    pieces separator cuts text ≠ [] := by
  cases cuts with
  | zero => simp [pieces]
  | succ cuts =>
    unfold pieces
    split <;> simp

theorem pieces_append {separator : Char} {before : Text} (cuts : Nat) (after : Text)
    (h : separator ∉ before) :
    pieces separator (cuts + 1) (before ++ separator :: after) =
      before :: pieces separator cuts after := by
  rw [pieces, cutAt?_append after h]

theorem pieces_of_not_mem {separator : Char} {text : Text} (cuts : Nat) (h : separator ∉ text) :
    pieces separator cuts text = [text] := by
  cases cuts with
  | zero => rfl
  | succ cuts => rw [pieces, cutAt?_eq_none_iff.2 h]

theorem pieces_two {separator : Char} {first second : Text} (h : separator ∉ first)
    (h' : separator ∉ second) :
    pieces separator 2 (first ++ separator :: second) = [first, second] := by
  rw [pieces_append 1 _ h, pieces_of_not_mem 1 h']

theorem pieces_three {separator : Char} {first second : Text} (third : Text)
    (h : separator ∉ first) (h' : separator ∉ second) :
    pieces separator 2 (first ++ separator :: second ++ separator :: third) =
      [first, second, third] := by
  rw [List.append_assoc, List.cons_append, pieces_append 1 _ h, pieces_append 0 _ h', pieces]

theorem intercalate_pieces (separator : Char) (cuts : Nat) (text : Text) :
    [separator].intercalate (pieces separator cuts text) = text := by
  induction cuts generalizing text with
  | zero => simp [pieces, List.intercalate]
  | succ cuts ih =>
    unfold pieces
    split
    · simp [List.intercalate]
    · next before after h =>
      obtain ⟨first, others, eq⟩ := List.exists_cons_of_ne_nil (pieces_ne_nil separator cuts after)
      have rest := ih after
      rw [(eq_of_cutAt? h).1]
      rw [eq] at rest ⊢
      simp only [List.intercalate, List.intersperse_cons_cons, List.flatten_cons] at rest ⊢
      simp [← rest]

/-- The text from a position on. A negative position counts from the end of the text; one before
its start is its start, one past its end leaves no text. -/
def suffixFrom (text : Text) (position : Int) : Text :=
  if position < 0 then text.drop (text.length + position).toNat else text.drop position.toNat

theorem suffixFrom_natCast (text : Text) (position : Nat) :
    text.suffixFrom position = text.drop position := by
  have : ¬(position : Int) < 0 := by omega
  simp [suffixFrom, this]

theorem suffixFrom_zero (text : Text) : text.suffixFrom 0 = text :=
  suffixFrom_natCast text 0

def ofBool (b : Bool) : Text := if b then "True".toList else "False".toList

def join (separator : Text) (texts : List Text) : Text :=
  separator.intercalate texts

end Text

end Almanac
