import Almanac.Proofs.FractionRounding

/-! Which texts are integers, told by their characters. An integer is a sign or none and then
digits, of any script and up to a greatest number of them. Number readers also take an underscore
between two digits; the reader of components does not, and takes every other integer, with blanks
around it. Main statement: a component is read if and only if it holds no underscore and is an
integer between its blanks. -/

namespace Almanac.Numeral

/-- Digits, single underscores allowed between them, and the number of digits. -/
inductive Grouped : Text → Nat → Prop where
  | digit {c : Char} (h : digitValue? c ≠ none) : Grouped [c] 1
  | adjoin {c : Char} {rest : Text} {count : Nat} (h : digitValue? c ≠ none)
      (others : Grouped rest count) : Grouped (c :: rest) (count + 1)
  | separate {c : Char} {rest : Text} {count : Nat} (h : digitValue? c ≠ none)
      (others : Grouped rest count) : Grouped (c :: '_' :: rest) (count + 1)

inductive IsSign : Text → Prop where
  | none : IsSign []
  | plus : IsSign ['+']
  | minus : IsSign ['-']

/-- A sign and digits; an integer of more digits than the greatest number is none. -/
def IsInteger (text : Text) : Prop :=
  ∃ sign magnitude count, text = sign ++ magnitude ∧ IsSign sign ∧ Grouped magnitude count ∧
    count ≤ maxDigits

theorem exists_mapM_digitValue? {text : Text} (h : ∀ c ∈ text, digitValue? c ≠ none) :
    ∃ values, text.mapM digitValue? = some values := by
  induction text with
  | nil => exact ⟨[], rfl⟩
  | cons c rest ih =>
    simp only [List.mem_cons, forall_eq_or_imp] at h
    obtain ⟨first, value⟩ := Option.ne_none_iff_exists'.1 h.1
    obtain ⟨others, values⟩ := ih h.2
    exact ⟨first :: others, by rw [List.mapM_cons, value, values]; rfl⟩

theorem readDigits?_ne_none_iff {text : Text} :
    readDigits? text ≠ none ↔
      text ≠ [] ∧ (∀ c ∈ text, digitValue? c ≠ none) ∧ text.length ≤ maxDigits := by
  constructor
  · intro read
    refine ⟨?_, fun c member other => ?_, ?_⟩
    · rintro rfl
      exact read rfl
    · rw [readDigits?, digitValues?_eq_none member other, Option.map_none, ite_self] at read
      exact read rfl
    · by_contra long
      rw [readDigits?, if_pos (not_le.1 long)] at read
      exact read rfl
  · rintro ⟨nonempty, digits, short⟩
    obtain ⟨values, same⟩ := exists_mapM_digitValue? digits
    rw [readDigits?, if_neg (not_lt.2 short), digitValues?, if_neg nonempty, same]
    exact Option.some_ne_none _

theorem grouped_of_digits {text : Text} (nonempty : text ≠ [])
    (digits : ∀ c ∈ text, digitValue? c ≠ none) : Grouped text text.length := by
  induction text with
  | nil => exact absurd rfl nonempty
  | cons c rest ih =>
    simp only [List.mem_cons, forall_eq_or_imp] at digits
    cases rest with
    | nil => exact .digit digits.1
    | cons next others => exact .adjoin digits.1 (ih (List.cons_ne_nil _ _) digits.2)

namespace Grouped
variable {text : Text} {count : Nat}

theorem exists_head (h : Grouped text count) :
    ∃ c rest, text = c :: rest ∧ digitValue? c ≠ none := by
  cases h with
  | digit h => exact ⟨_, _, rfl, h⟩
  | adjoin h => exact ⟨_, _, rfl, h⟩
  | separate h => exact ⟨_, _, rfl, h⟩

theorem digits_of_no_underscore (h : Grouped text count) (plain : '_' ∉ text) :
    (∀ c ∈ text, digitValue? c ≠ none) ∧ text.length = count := by
  induction h with
  | digit h => exact ⟨List.forall_mem_singleton.2 h, rfl⟩
  | adjoin h _ ih =>
    obtain ⟨digits, length⟩ := ih fun member => plain (List.mem_cons_of_mem _ member)
    exact ⟨List.forall_mem_cons.2 ⟨h, digits⟩, congrArg (· + 1) length⟩
  | separate => exact absurd (by simp) plain

theorem cutSign_append (h : Grouped text count) {sign : Text} (signed : IsSign sign) :
    (cutSign (sign ++ text)).2 = text := by
  obtain ⟨c, rest, rfl, digit⟩ := h.exists_head
  cases signed with
  | plus => rfl
  | minus => rfl
  | none =>
    rw [List.nil_append]
    unfold cutSign
    split
    · next same =>
      obtain ⟨rfl, -⟩ := List.cons.inj same
      exact absurd (by decide) digit
    · next same =>
      obtain ⟨rfl, -⟩ := List.cons.inj same
      exact absurd (by decide) digit
    · rfl

end Grouped

theorem exists_sign (text : Text) : ∃ sign, IsSign sign ∧ text = sign ++ (cutSign text).2 := by
  unfold cutSign
  split
  · exact ⟨_, .minus, rfl⟩
  · exact ⟨_, .plus, rfl⟩
  · exact ⟨_, .none, rfl⟩

theorem readDigits?_cutSign_ne_none_iff {text : Text} (plain : '_' ∉ text) :
    readDigits? (cutSign text).2 ≠ none ↔ IsInteger text := by
  constructor
  · intro read
    obtain ⟨nonempty, digits, short⟩ := readDigits?_ne_none_iff.1 read
    obtain ⟨sign, signed, same⟩ := exists_sign text
    exact ⟨sign, _, _, same, signed, grouped_of_digits nonempty digits, short⟩
  · rintro ⟨sign, magnitude, count, rfl, signed, grouped, short⟩
    have plain' : '_' ∉ magnitude := fun member => plain (List.mem_append_right _ member)
    obtain ⟨digits, length⟩ := grouped.digits_of_no_underscore plain'
    obtain ⟨c, rest, rfl, -⟩ := grouped.exists_head
    rw [grouped.cutSign_append signed]
    exact readDigits?_ne_none_iff.2 ⟨List.cons_ne_nil _ _, digits, length.trans_le short⟩

theorem readInt?_ne_none_iff {component : Text} :
    readInt? component ≠ none ↔ '_' ∉ component ∧ IsInteger (Text.strip component) := by
  by_cases plain : '_' ∈ component
  · have unread := readInt?_eq_none plain (by decide) (by decide) (by decide)
    simp only [unread, plain, ne_eq, not_true_eq_false, false_and]
  · obtain ⟨front, back, whole, -⟩ := Text.eq_append_strip_append component
    have plain' : '_' ∉ Text.strip component := by
      intro member
      rw [whole] at plain
      exact plain (List.mem_append_left _ (List.mem_append_right _ member))
    rw [← readDigits?_cutSign_ne_none_iff plain', readInt?]
    simp only [plain, ne_eq, Option.map_eq_none_iff, not_false_eq_true, true_and]

end Almanac.Numeral
