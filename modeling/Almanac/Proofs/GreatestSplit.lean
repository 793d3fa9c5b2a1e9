import Mathlib
import Almanac.PatternMatch

/-! The split of a text that a pattern takes. Splits of one text are compared by the lengths of
their pieces from left to right. A field that stands alone tries its longest piece first, and a
piece is given up only if no split of the text behind it exists; fields that abut have no choice.
By induction on a split, none is greater than the one found, and none is missed. Main statement:
the split found is the greatest one, and there is no split if none is found. -/

namespace Almanac.DatePattern

/-- A split of a text whose pieces have the greatest lengths, in lexicographic order. -/
structure GreatestSplit (tokens : List PatternToken) (text : Text) (pieces : List Text) : Prop where
  split : Split tokens text pieces
  greatest : ∀ other, Split tokens text other → other.map List.length ≤ pieces.map List.length

theorem split?_literal {c : Char} {tokens : List PatternToken} {text : Text} {pieces : List Text}
    (found : split? tokens text = some pieces) :
    split? (.literal c :: tokens) (c :: text) = some ([c] :: pieces) := by
  rw [split?, if_pos rfl, found]
  rfl

section
variable {field : PatternField} {width : Nat} {tokens : List PatternToken} {piece : Text}
  {pieces : List Text}

theorem split?_abutting {behind : Text} (follows : startsWithField tokens)
    (length : piece.length = width) (digits : ∀ c ∈ piece, c.isDigit)
    (found : split? tokens behind = some pieces) :
    split? (.field field width :: tokens) (piece ++ behind) = some (piece :: pieces) := by
  rw [split?, if_pos follows, List.take_left' length, List.drop_left' length,
    if_pos ⟨length, List.all_eq_true.2 digits⟩, found]
  rfl

theorem split?_alone {text : Text} (alone : ¬startsWithField tokens)
    (taken : longestPiece? (split? tokens) text = some (piece, pieces)) :
    split? (.field field width :: tokens) text = some (piece :: pieces) := by
  rw [split?, if_neg alone, taken]
  rfl

end

theorem longestPiece?_append {rest? : Text → Option (List Text)} {piece behind : Text}
    {pieces : List Text} (nonempty : piece ≠ []) (digits : ∀ c ∈ piece, c.isDigit)
    (found : rest? behind = some pieces) :
    ∃ longest others, longestPiece? rest? (piece ++ behind) = some (longest, others) ∧
      (piece.length < longest.length ∨ longest = piece ∧ others = pieces) := by
  induction piece with
  | nil => exact absurd rfl nonempty
  | cons c piece ih =>
    simp only [List.mem_cons, forall_eq_or_imp] at digits
    rw [List.cons_append, longestPiece?, if_pos digits.1]
    cases longer : longestPiece? rest? (piece ++ behind) with
    | some result =>
      obtain ⟨longest, others⟩ := result
      refine ⟨c :: longest, others, rfl, ?_⟩
      by_cases single : piece = []
      · have positive := List.length_pos_iff.2 (longestPiece?_eq_some longer).1
        left
        rw [single, List.length_cons, List.length_cons, List.length_nil]
        omega
      · obtain ⟨_, _, same, compared⟩ := ih single digits.2
        obtain ⟨rfl, rfl⟩ := Prod.mk.inj (Option.some.inj (longer.symm.trans same))
        rcases compared with less | ⟨rfl, rfl⟩
        · exact .inl (Nat.succ_lt_succ less)
        · exact .inr ⟨rfl, rfl⟩
    | none =>
      by_cases single : piece = []
      · subst single
        exact ⟨[c], pieces, by simp [found], .inr ⟨rfl, rfl⟩⟩
      · obtain ⟨_, _, same, -⟩ := ih single digits.2
        rw [longer] at same
        cases same

theorem exists_split?_ge {tokens : List PatternToken} {text : Text} {other : List Text}
    (h : Split tokens text other) :
    ∃ pieces, split? tokens text = some pieces ∧
      other.map List.length ≤ pieces.map List.length := by
  induction h with
  | nil text => exact ⟨[], rfl, le_rfl⟩
  | @literal c tokens text others rest ih =>
    obtain ⟨pieces, found, compared⟩ := ih
    exact ⟨[c] :: pieces, split?_literal found, List.cons_le_cons _ compared⟩
  | @field field width tokens piece text others nonempty digits exact rest ih =>
    obtain ⟨pieces, found, compared⟩ := ih
    by_cases follows : startsWithField tokens
    · refine ⟨piece :: pieces, ?_, List.cons_le_cons _ compared⟩
      exact split?_abutting follows (exact follows) digits found
    · obtain ⟨longest, others, taken, longer⟩ := longestPiece?_append nonempty digits found
      refine ⟨longest :: others, split?_alone follows taken, ?_⟩
      rcases longer with less | ⟨rfl, rfl⟩
      · exact le_of_lt (List.Lex.rel less)
      · exact List.cons_le_cons _ compared

theorem greatestSplit_of_split? {tokens : List PatternToken} {text : Text} {pieces : List Text}
    (separate : Separate tokens) (h : split? tokens text = some pieces) :
    GreatestSplit tokens text pieces := by
  refine ⟨split_of_split? separate h, fun other split => ?_⟩
  obtain ⟨found, same, compared⟩ := exists_split?_ge split
  cases h.symm.trans same
  exact compared

theorem split?_eq_none {tokens : List PatternToken} {text : Text} (separate : Separate tokens)
    (h : ∀ pieces, ¬Split tokens text pieces) : split? tokens text = none := by
  cases found : split? tokens text with
  | none => rfl
  | some pieces => exact absurd (split_of_split? separate found) (h pieces)

theorem Split.eq_of_lengths {tokens : List PatternToken} {text : Text} {first second : List Text}
    (h : Split tokens text first) (h' : Split tokens text second)
    (lengths : first.map List.length = second.map List.length) : first = second := by
  obtain ⟨rest, eq⟩ := h.prefix_flatten
  obtain ⟨rest', eq'⟩ := h'.prefix_flatten
  have total : first.flatten.length = second.flatten.length := by
    rw [List.length_flatten, List.length_flatten, lengths]
  have joined := List.append_inj_left (eq.symm.trans eq') total
  exact List.eq_iff_flatten_eq.2 ⟨joined, lengths⟩

theorem GreatestSplit.unique {tokens : List PatternToken} {text : Text} {first second : List Text}
    (h : GreatestSplit tokens text first) (h' : GreatestSplit tokens text second) :
    first = second :=
  h.split.eq_of_lengths h'.split ((h'.greatest _ h.split).antisymm (h.greatest _ h'.split))

theorem split?_of_greatestSplit {tokens : List PatternToken} {text : Text} {pieces : List Text}
    (separate : Separate tokens) (h : GreatestSplit tokens text pieces) :
    split? tokens text = some pieces := by
  obtain ⟨found, same, -⟩ := exists_split?_ge h.split
  rw [same, (greatestSplit_of_split? separate same).unique h]

end Almanac.DatePattern
