import Mathlib
import Almanac.PatternScan

/-! Which texts are patterns. The reader of patterns looks ahead at quotes, since a doubled one does
not end what an opening one has begun; but two quotes change the side twice, so that the side on
which a character stands is told by the number of quotes in front of it, even or odd. Main
statement: a text is a pattern if and only if the number of its quotes is even and every letter
behind an even number of them is one of a field, and the error is the first letter that is not, or
a quote left open. -/

namespace Almanac.DatePattern

def fieldLetters : Text := "yMdHmsS".toList

theorem ofLetter?_eq_none_iff {c : Char} : PatternField.ofLetter? c = none ↔ c ∉ fieldLetters := by
  constructor
  · intro unknown member
    have known : fieldLetters.all fun letter => (PatternField.ofLetter? letter).isSome := rfl
    have given := List.all_eq_true.1 known c member
    rw [unknown] at given
    cases given
  · intro other
    unfold PatternField.ofLetter?
    split
    case h_8 => rfl
    all_goals exact absurd (by decide) other

def toggle (quoted : Bool) (c : Char) : Bool := quoted != (c == '\'')

@[simp] theorem toggle_quote (quoted : Bool) : toggle quoted '\'' = !quoted := by
  simp [toggle]

theorem toggle_of_ne (quoted : Bool) {c : Char} (h : c ≠ '\'') : toggle quoted c = quoted := by
  simp [toggle, beq_false_of_ne h]

/-- Behind an even number of quotes only letters of fields stand. -/
def LegalLetters (text : Text) : Prop :=
  ∀ front c back, text = front ++ c :: back → Even (front.count '\'') →
    c.isAlpha → c ∈ fieldLetters

def LegalFrom (quoted : Bool) (text : Text) : Prop :=
  ∀ front c back, text = front ++ c :: back → Even (front.count '\'' + quoted.toNat) →
    c.isAlpha → c ∈ fieldLetters

theorem legalFrom_false {text : Text} : LegalFrom false text ↔ LegalLetters text := Iff.rfl

/-- What is wrong with a text, found without looking ahead. -/
def fault? : Bool → Text → Option PatternError
  | quoted, [] => if quoted then some .unterminatedQuote else none
  | quoted, c :: rest =>
    if quoted = false ∧ c.isAlpha ∧ c ∉ fieldLetters then some (.illegalLetter c)
    else fault? (toggle quoted c) rest

theorem even_count_cons (quoted : Bool) (c : Char) (front : Text) :
    Even ((c :: front).count '\'' + quoted.toNat) ↔
      Even (front.count '\'' + (toggle quoted c).toNat) := by
  by_cases quote : c = '\''
  · cases quoted <;> simp [quote, Nat.even_add_one]
  · simp [toggle_of_ne quoted quote, quote]

theorem even_toNat_iff {quoted : Bool} : Even quoted.toNat ↔ quoted = false := by
  cases quoted <;> simp

theorem legalFrom_nil (quoted : Bool) : LegalFrom quoted [] := by
  rintro front c back split
  cases front <;> cases split

theorem legalFrom_cons {quoted : Bool} {c : Char} {rest : Text} :
    LegalFrom quoted (c :: rest) ↔
      (quoted = false → c.isAlpha → c ∈ fieldLetters) ∧ LegalFrom (toggle quoted c) rest := by
  constructor
  · intro legal
    refine ⟨fun outside => legal [] c rest rfl ?_, fun front next back split outside => ?_⟩
    · simp [outside]
    · exact legal (c :: front) next back (by rw [split]; rfl) ((even_count_cons _ _ _).2 outside)
  · rintro ⟨first, later⟩ front next back split outside
    cases front with
    | nil =>
      cases split
      exact first (even_toNat_iff.1 (by simpa using outside))
    | cons _ front =>
      obtain ⟨rfl, rfl⟩ := List.cons.inj split
      exact later front next back rfl ((even_count_cons _ _ _).1 outside)

theorem fault?_eq_iff {quoted : Bool} {text : Text} {outcome : Option PatternError}
    (noLetter : ∀ letter, outcome ≠ some (.illegalLetter letter)) :
    fault? quoted text = outcome ↔
      LegalFrom quoted text ∧ outcome =
        if Even (text.count '\'' + quoted.toNat) then none else some .unterminatedQuote := by
  induction text generalizing quoted with
  | nil => cases quoted <;> simp [fault?, legalFrom_nil, eq_comm]
  | cons c rest ih =>
    rw [fault?, legalFrom_cons]
    simp only [even_count_cons]
    split
    · next illegal =>
      have stops : some (.illegalLetter c) ≠ outcome := (noLetter c).symm
      tauto
    · next legal =>
      have first : quoted = false → c.isAlpha → c ∈ fieldLetters := by tauto
      rw [ih]
      tauto

theorem fault?_eq_illegalLetter_iff {quoted : Bool} {text : Text} {letter : Char} :
    fault? quoted text = some (.illegalLetter letter) ↔
      ∃ front back, text = front ++ letter :: back ∧ LegalFrom quoted front ∧
        Even (front.count '\'' + quoted.toNat) ∧ letter.isAlpha ∧ letter ∉ fieldLetters := by
  induction text generalizing quoted with
  | nil => cases quoted <;> simp [fault?]
  | cons c rest ih =>
    rw [fault?]
    split
    · next illegal =>
      constructor
      · rintro ⟨⟩
        exact ⟨[], rest, rfl, legalFrom_nil _, by simp [illegal], illegal.2⟩
      · rintro ⟨front, back, split, legal, -, -⟩
        cases front with
        | nil =>
          cases split
          rfl
        | cons _ front =>
          obtain ⟨rfl, rfl⟩ := List.cons.inj split
          exact absurd ((legalFrom_cons.1 legal).1 illegal.1 illegal.2.1) illegal.2.2
    · next legal =>
      rw [ih]
      constructor
      · rintro ⟨front, back, rfl, legal', outside, illegal⟩
        refine ⟨c :: front, back, rfl, legalFrom_cons.2 ⟨by tauto, legal'⟩, ?_, illegal⟩
        exact (even_count_cons _ _ _).2 outside
      · rintro ⟨front, back, split, legal', outside, illegal⟩
        cases front with
        | nil =>
          cases split
          exact absurd ⟨even_toNat_iff.1 (by simpa using outside), illegal⟩ legal
        | cons _ front =>
          obtain ⟨rfl, rfl⟩ := List.cons.inj split
          exact ⟨front, back, rfl, (legalFrom_cons.1 legal').2, (even_count_cons _ _ _).1 outside,
            illegal⟩

theorem map_eq_error_iff {α β ε : Type} {f : α → β} {x : Except ε α} {e : ε} :
    x.map f = .error e ↔ x = .error e := by
  cases x <;> simp [Except.map]

def Place.inside : Place → Bool
  | outside => false
  | opened | quoted => true

theorem Place.inside_of_ne {place : Place} (h : place ≠ outside) : place.inside = true := by
  cases place with
  | outside => exact absurd rfl h
  | opened => rfl
  | quoted => rfl

theorem fault?_quote (quoted : Bool) (rest : Text) :
    fault? quoted ('\'' :: rest) = fault? (!quoted) rest := by
  have noLetter : '\''.isAlpha = false := by decide
  rw [fault?, if_neg (by simp [noLetter]), toggle_quote]

theorem fault?_legal {quoted : Bool} {c : Char} (rest : Text) (other : c ≠ '\'')
    (legal : quoted = false → c.isAlpha → c ∈ fieldLetters) :
    fault? quoted (c :: rest) = fault? quoted rest := by
  rw [fault?, if_neg (by tauto), toggle_of_ne quoted other]

theorem scan_eq_error_iff {place : Place} {text : Text} {error : PatternError} :
    scan place text = .error error ↔ fault? place.inside text = some error := by
  fun_induction scan place text with
  | case1 => simp [fault?, Place.inside]
  | case2 place quoted => simp [fault?, Place.inside_of_ne quoted]
  | case3 rest ih => rw [ih, Place.inside, Place.inside, fault?_quote, Bool.not_false]
  | case4 c rest other letter field found ih =>
    have legal : c ∈ fieldLetters := by
      by_contra illegal
      rw [ofLetter?_eq_none_iff.2 illegal] at found
      cases found
    rw [map_eq_error_iff, ih, fault?_legal rest other fun _ _ => legal]
  | case5 c rest other letter unknown =>
    rw [fault?, if_pos ⟨rfl, letter, ofLetter?_eq_none_iff.1 unknown⟩, Except.error.injEq,
      Option.some.injEq]
  | case6 c rest other noLetter ih =>
    rw [map_eq_error_iff, ih, fault?_legal rest other fun _ letter => absurd letter noLetter]
  | case7 place rest quoted ih =>
    rw [map_eq_error_iff, ih, fault?_quote, fault?_quote, Bool.not_not,
      Place.inside_of_ne quoted]
    rfl
  | case8 rest single ih =>
    rw [map_eq_error_iff, ih, fault?_quote]
    rfl
  | case9 rest single ih =>
    rw [ih, fault?_quote]
    rfl
  | case10 place c rest quoted _ noQuote noQuote' ih =>
    have other : c ≠ '\'' := by
      cases place with
      | outside => exact absurd rfl quoted
      | opened => exact noQuote rfl
      | quoted => exact noQuote' rfl
    rw [map_eq_error_iff, ih, Place.inside_of_ne quoted, @fault?_legal true c rest other (by simp)]
    rfl

theorem ofText_eq_error_iff {source : Text} {error : PatternError} :
    ofText source = .error error ↔ fault? false source = some error := by
  rw [ofText_eq_scan, map_eq_error_iff, scan_eq_error_iff]
  rfl

theorem exists_ofText_iff {source : Text} :
    (∃ pattern, ofText source = .ok pattern) ↔ fault? false source = none := by
  rw [Option.eq_none_iff_forall_not_mem]
  simp only [Option.mem_def, ← ofText_eq_error_iff]
  cases ofText source <;> simp

/-- A text is a pattern if and only if its quotes are even in number and every letter behind an even
number of them is a field's. What is wrong with any other text is its first letter that is not, and
a quote left open if there is none. -/
theorem ofText_outcome_by_parity (source : Text) :
    ((∃ pattern, ofText source = .ok pattern) ↔
      Even (source.count '\'') ∧ LegalLetters source) ∧
    ((∃ error, ofText source = .error error) ↔
      ¬(Even (source.count '\'') ∧ LegalLetters source)) ∧
    (∀ letter, ofText source = .error (.illegalLetter letter) ↔
      ∃ front back, source = front ++ letter :: back ∧ LegalLetters front ∧
        Even (front.count '\'') ∧ letter.isAlpha ∧ letter ∉ fieldLetters) ∧
    (ofText source = .error .unterminatedQuote ↔
      Odd (source.count '\'') ∧ LegalLetters source) := by
  have accepted : (∃ pattern, ofText source = .ok pattern) ↔
      Even (source.count '\'') ∧ LegalLetters source := by
    rw [exists_ofText_iff, fault?_eq_iff (by simp), legalFrom_false, and_comm]
    simp
  refine ⟨accepted, ?_, fun letter => ?_, ?_⟩
  · rw [← accepted]
    cases ofText source <;> simp
  · rw [ofText_eq_error_iff, fault?_eq_illegalLetter_iff]
    simp only [legalFrom_false, Bool.toNat_false, Nat.add_zero]
  · rw [ofText_eq_error_iff, fault?_eq_iff (by simp), legalFrom_false, and_comm,
      ← Nat.not_even_iff_odd]
    simp

end Almanac.DatePattern
