import Almanac.PatternMatch
import Almanac.Proofs.PatternAcceptance

/-! Quotes side by side in a pattern. By the rule of patterns two of them stand for one quote
wherever they are, and any other one begins or ends quoted text. The reader takes the first quote
outside for the beginning of quoted text, so that of an even number of them, and not only two, the
first and the last are the marks and one quote is lost. By induction on the runs of quotes this is
the only difference. Main statement: the tokens of a pattern are those of the rule if and only if
no such run stands outside of quoted text, and each such run is read one quote short. -/

namespace Almanac.DatePattern

/-- The rule of patterns, from left to right: the text from a character on, which is quoted or is
not. -/
def reading : Bool → Text → List PatternToken
  | _, [] => []
  | quoted, '\'' :: '\'' :: rest => .literal '\'' :: reading quoted rest
  | quoted, '\'' :: rest => reading (!quoted) rest
  | true, c :: rest => .literal c :: reading true rest
  | false, c :: rest =>
    match PatternField.ofLetter? c with
    | some field => consLetter field (reading false rest)
    | none => .literal c :: reading false rest

abbrev quotes (count : Nat) : List PatternToken := List.replicate count (.literal '\'')

/-- Outside of quoted text, an even number of quotes side by side, and not only two. -/
structure EvenRun (source front back : Text) (pairs : Nat) : Prop where
  text : source = front ++ (List.replicate (2 * pairs) '\'' ++ back)
  outside : Even (front.count '\'')
  first : front.getLast? ≠ some '\''
  last : back.head? ≠ some '\''
  many : 2 ≤ pairs

theorem scan_quoted_pairs (pairs : Nat) (rest : Text) :
    scan .quoted (List.replicate (2 * pairs) '\'' ++ rest) =
      (scan .quoted rest).map (quotes pairs ++ ·) := by
  induction pairs with
  | zero => cases h : scan .quoted rest <;> simp [h, Except.map]
  | succ pairs ih =>
    change scan .quoted ('\'' :: '\'' :: (List.replicate (2 * pairs) '\'' ++ rest)) = _
    rw [scan_inside_pair (by decide), ih, map_map_result]
    rfl

theorem reading_pairs (quoted : Bool) (pairs : Nat) (rest : Text) :
    reading quoted (List.replicate (2 * pairs) '\'' ++ rest) =
      quotes pairs ++ reading quoted rest := by
  induction pairs with
  | zero => rfl
  | succ pairs ih =>
    change reading quoted ('\'' :: '\'' :: (List.replicate (2 * pairs) '\'' ++ rest)) = _
    rw [reading, ih]
    rfl

theorem replicate_succ_quote (run : Nat) (rest : Text) :
    List.replicate (run + 1) '\'' ++ rest = List.replicate run '\'' ++ '\'' :: rest := by
  rw [List.replicate_succ', List.append_assoc, List.singleton_append]

section
variable {rest : Text} (alone : rest.head? ≠ some '\'')
include alone

theorem scan_opened_quote :
    scan .opened ('\'' :: rest) = (scan .outside rest).map (quotes 1 ++ ·) := by
  rw [scan]
  · rfl
  · rintro _ rfl
    exact alone rfl

theorem scan_quoted_quote : scan .quoted ('\'' :: rest) = scan .outside rest := by
  rw [scan]
  rintro _ rfl
  exact alone rfl

theorem scan_opened_eq : scan .opened rest = scan .quoted rest := by
  cases rest with
  | nil => rfl
  | cons c rest =>
    have other : c ≠ '\'' := fun same => alone (congrArg some same)
    rw [scan_inside_cons (by decide) other, scan_inside_cons (by decide) other]

theorem scan_quoted_odd (pairs : Nat) :
    scan .quoted (List.replicate (2 * pairs + 1) '\'' ++ rest) =
      (scan .outside rest).map (quotes pairs ++ ·) := by
  rw [replicate_succ_quote, scan_quoted_pairs, scan_quoted_quote alone]

theorem scan_outside_odd (pairs : Nat) :
    scan .outside (List.replicate (2 * pairs + 1) '\'' ++ rest) =
      (scan .quoted rest).map (quotes pairs ++ ·) := by
  change scan .opened (List.replicate (2 * pairs) '\'' ++ rest) = _
  cases pairs with
  | zero =>
    change scan .opened rest = _
    rw [scan_opened_eq alone]
    cases scan .quoted rest <;> rfl
  | succ pairs =>
    change scan .opened ('\'' :: '\'' :: (List.replicate (2 * pairs) '\'' ++ rest)) = _
    rw [scan_inside_pair (by decide), scan_quoted_pairs, map_map_result]
    rfl

theorem scan_outside_pair :
    scan .outside ('\'' :: '\'' :: rest) = (scan .outside rest).map (quotes 1 ++ ·) :=
  scan_opened_quote alone

theorem scan_outside_even (pairs : Nat) :
    scan .outside (List.replicate (2 * (pairs + 2)) '\'' ++ rest) =
      (scan .outside rest).map (quotes (pairs + 1) ++ ·) := by
  change scan .opened ('\'' :: '\'' :: (List.replicate (2 * pairs + 1) '\'' ++ rest)) = _
  rw [scan_inside_pair (by decide), scan_quoted_odd alone, map_map_result]
  rfl

theorem reading_quote (quoted : Bool) :
    reading quoted ('\'' :: rest) = reading (!quoted) rest := by
  rw [reading]
  rintro _ rfl
  exact alone rfl

theorem reading_odd (quoted : Bool) (pairs : Nat) :
    reading quoted (List.replicate (2 * pairs + 1) '\'' ++ rest) =
      quotes pairs ++ reading (!quoted) rest := by
  rw [replicate_succ_quote, reading_pairs, reading_quote alone]

end

theorem reading_inside_cons {c : Char} (other : c ≠ '\'') (rest : Text) :
    reading true (c :: rest) = .literal c :: reading true rest := by
  rw [reading]
  · exact fun _ quote _ => other quote
  · exact other

theorem reading_outside_letter {c : Char} {field : PatternField}
    (letter : PatternField.ofLetter? c = some field) (rest : Text) :
    reading false (c :: rest) = consLetter field (reading false rest) := by
  have other : c ≠ '\'' := by
    rintro rfl
    cases letter
  rw [reading, letter]
  · exact fun _ quote _ => other quote
  · exact other

theorem reading_outside_cons {c : Char} (other : c ≠ '\'')
    (noLetter : PatternField.ofLetter? c = none) (rest : Text) :
    reading false (c :: rest) = .literal c :: reading false rest := by
  rw [reading, noLetter]
  · exact fun _ quote _ => other quote
  · exact other

def side (quoted : Bool) : Place := if quoted then .quoted else .outside

def Agrees (quoted : Bool) (text : Text) : Prop :=
  ∀ tokens, scan (side quoted) text = .ok tokens → tokens = reading quoted text

theorem Agrees.of_rest {quoted quoted' : Bool} {text rest : Text}
    {f : List PatternToken → List PatternToken} (agrees : Agrees quoted' rest)
    (scanned : scan (side quoted) text = (scan (side quoted') rest).map f)
    (read : reading quoted text = f (reading quoted' rest)) : Agrees quoted text := by
  intro tokens h
  rw [scanned] at h
  obtain ⟨others, found, rfl⟩ := exists_of_map_ok h
  rw [read, agrees others found]

theorem agrees_nil (quoted : Bool) : Agrees quoted [] := by
  intro tokens h
  cases quoted with
  | false =>
    cases h
    rfl
  | true => cases h

theorem agrees_cons {quoted : Bool} {c : Char} {rest : Text} (other : c ≠ '\'')
    (agrees : Agrees quoted rest) : Agrees quoted (c :: rest) := by
  cases quoted with
  | true =>
    have inside : side true ≠ .outside := by decide
    exact agrees.of_rest (scan_inside_cons inside other rest) (reading_inside_cons other rest)
  | false =>
    cases letter : PatternField.ofLetter? c with
    | some field =>
      exact agrees.of_rest (scan_outside_letter letter rest) (reading_outside_letter letter rest)
    | none =>
      by_cases alpha : c.isAlpha
      · intro tokens h
        rw [side, if_neg Bool.false_ne_true, scan, if_neg other, if_pos alpha, letter] at h
        cases h
      · exact agrees.of_rest (scan_outside_cons other alpha rest)
          (reading_outside_cons other letter rest)

section
variable {quoted : Bool} {rest : Text} (alone : rest.head? ≠ some '\'')
include alone

theorem agrees_pairs {pairs : Nat} (few : quoted = false → pairs ≤ 1)
    (agrees : Agrees quoted rest) : Agrees quoted (List.replicate (2 * pairs) '\'' ++ rest) := by
  refine agrees.of_rest ?_ (reading_pairs quoted pairs rest)
  cases quoted with
  | true => exact scan_quoted_pairs pairs rest
  | false =>
    match pairs, few rfl with
    | 0, _ => cases h : scan .outside rest <;> simp [side, h, Except.map]
    | 1, _ => exact scan_outside_pair alone

theorem agrees_odd (pairs : Nat) (agrees : Agrees (!quoted) rest) :
    Agrees quoted (List.replicate (2 * pairs + 1) '\'' ++ rest) := by
  refine agrees.of_rest ?_ (reading_odd alone quoted pairs)
  cases quoted with
  | true => exact scan_quoted_odd alone pairs
  | false => exact scan_outside_odd alone pairs

theorem agrees_run {run : Nat} (few : quoted = false → Even run → run ≤ 2)
    (agrees : ∀ quoted', Even (run + quoted.toNat + quoted'.toNat) → Agrees quoted' rest) :
    Agrees quoted (List.replicate run '\'' ++ rest) := by
  obtain ⟨pairs, rfl | rfl⟩ := Nat.even_or_odd' run
  · refine agrees_pairs alone (fun outside => ?_) (agrees quoted ?_)
    · have := few outside (even_two_mul pairs)
      omega
    · exact ⟨pairs + quoted.toNat, by omega⟩
  · refine agrees_odd alone pairs (agrees (!quoted) ?_)
    cases quoted
    · exact ⟨pairs + 1, by simp; omega⟩
    · exact ⟨pairs + 1, by simp; omega⟩

end

section
variable {source : Text} (none : ∀ front back pairs, ¬EvenRun source front back pairs)
include none

theorem le_two_of_no_evenRun {front back : Text} {run : Nat} {quoted : Bool}
    (whole : source = front ++ (List.replicate run '\'' ++ back))
    (first : front.getLast? ≠ some '\'') (parity : Even (front.count '\'' + quoted.toNat))
    (last : back.head? ≠ some '\'') (outside : quoted = false) (even : Even run) : run ≤ 2 := by
  subst outside
  obtain ⟨pairs, rfl⟩ := even.two_dvd
  by_contra more
  exact none front back pairs ⟨whole, parity, first, last, by omega⟩

theorem agrees_of_no_evenRun (text : Text) {front : Text} {run : Nat} {quoted : Bool}
    (whole : source = front ++ (List.replicate run '\'' ++ text))
    (first : front.getLast? ≠ some '\'') (parity : Even (front.count '\'' + quoted.toNat)) :
    Agrees quoted (List.replicate run '\'' ++ text) := by
  -- the text behind a run of quotes, whose side is told by all quotes before
  induction text generalizing front run quoted with
  | nil =>
    have few := le_two_of_no_evenRun none whole first parity (by simp)
    exact agrees_run (by simp) few fun quoted' _ => agrees_nil quoted'
  | cons c text ih =>
    by_cases quote : c = '\''
    · subst quote
      rw [← replicate_succ_quote] at whole ⊢
      exact ih whole first parity
    · have alone : (c :: text).head? ≠ some '\'' := by simpa using quote
      have few := le_two_of_no_evenRun none whole first parity alone
      refine agrees_run alone few fun quoted' same => agrees_cons quote ?_
      have whole' : source = (front ++ List.replicate run '\'' ++ [c]) ++
          (List.replicate 0 '\'' ++ text) := by simpa using whole
      refine ih whole' (by simpa using quote) ?_
      have count : (front ++ List.replicate run '\'' ++ [c]).count '\'' =
          front.count '\'' + run := by simp [quote]
      rw [count]
      rw [Nat.even_iff] at *
      omega

theorem tokens_eq_reading {pattern : DatePattern} (accepted : ofText source = .ok pattern) :
    pattern.tokens = reading false source := by
  rw [ofText_eq_scan] at accepted
  obtain ⟨tokens, scanned, rfl⟩ := exists_of_map_ok accepted
  exact @agrees_of_no_evenRun source none source [] 0 false rfl (by simp) (by simp) tokens scanned

end

theorem even_count_quote {quoted : Bool} {front : Text} :
    Even (('\'' :: front).count '\'' + quoted.toNat) ↔
      Even (front.count '\'' + (!quoted).toNat) := by
  rw [even_count_cons, toggle_quote]

theorem even_count_other {quoted : Bool} {c : Char} {front : Text} (other : c ≠ '\'') :
    Even ((c :: front).count '\'' + quoted.toNat) ↔ Even (front.count '\'' + quoted.toNat) := by
  rw [even_count_cons, toggle_of_ne quoted other]

theorem consLetter_append {field : PatternField} {before after : List PatternToken}
    (literal : startsWithField after = false) :
    consLetter field (before ++ after) = consLetter field before ++ after := by
  match before, after with
  | [], [] => rfl
  | [], .literal _ :: _ => rfl
  | [], .field _ _ :: _ => cases literal
  | .literal _ :: _, _ => rfl
  | .field _ _ :: _, _ =>
    simp only [List.cons_append, consLetter]
    split <;> rfl

theorem getLast?_tail {c : Char} {front : Text} (h : (c :: front).getLast? ≠ some '\'') :
    front.getLast? ≠ some '\'' := by
  cases front with
  | nil => simp
  | cons => simpa using h

theorem head?_append_of_single {front : Text} (rest : Text)
    (single : ∀ more, front = '\'' :: more → False) (first : ('\'' :: front).getLast? ≠ some '\'') :
    front.head? ≠ some '\'' ∧ (front ++ rest).head? ≠ some '\'' := by
  cases front with
  | nil => exact absurd rfl first
  | cons c front =>
    have other : c ≠ '\'' := fun same => single front (by rw [same])
    simpa using other

section
variable {rest : Text}

theorem reading_append {quoted : Bool} {front : Text}
    (parity : Even (front.count '\'' + quoted.toNat)) (first : front.getLast? ≠ some '\'')
    (literal : startsWithField (reading false rest) = false) :
    reading quoted (front ++ rest) = reading quoted front ++ reading false rest := by
  fun_induction reading quoted front with
  | case1 quoted =>
    have outside : quoted = false := even_toNat_iff.1 (by simpa using parity)
    rw [outside]
    rfl
  | case2 quoted front ih =>
    have parity' := even_count_quote.1 (even_count_quote.1 parity)
    rw [Bool.not_not] at parity'
    rw [List.cons_append, List.cons_append, reading,
      ih parity' (getLast?_tail (getLast?_tail first))]
    rfl
  | case3 quoted front single ih =>
    rw [List.cons_append, reading_quote (head?_append_of_single rest single first).2,
      ih (even_count_quote.1 parity) (getLast?_tail first)]
  | case4 c front _ other ih =>
    rw [List.cons_append, reading_inside_cons other,
      ih ((even_count_other other).1 parity) (getLast?_tail first)]
    rfl
  | case5 c front _ other field letter ih =>
    rw [List.cons_append, reading_outside_letter letter,
      ih ((even_count_other other).1 parity) (getLast?_tail first), consLetter_append literal]
  | case6 c front _ other noLetter ih =>
    rw [List.cons_append, reading_outside_cons other noLetter,
      ih ((even_count_other other).1 parity) (getLast?_tail first)]
    rfl

/-- A text is read by reading its front, and what is behind as a text of its own. -/
def Continues (place : Place) (front rest : Text) : Prop :=
  ∀ tokens, scan place (front ++ rest) = .ok tokens →
    ∃ before after, scan place front = .ok before ∧ scan .outside rest = .ok after ∧
      tokens = before ++ after

theorem Continues.of_tail {place place' : Place} {front tail : Text}
    {f : List PatternToken → List PatternToken} (continues : Continues place' tail rest)
    (scanned : scan place (front ++ rest) = (scan place' (tail ++ rest)).map f)
    (scanned' : scan place front = (scan place' tail).map f)
    (append : ∀ before after, scan .outside rest = .ok after →
      f (before ++ after) = f before ++ after) : Continues place front rest := by
  intro tokens h
  rw [scanned] at h
  obtain ⟨others, found, rfl⟩ := exists_of_map_ok h
  obtain ⟨before, after, found', behind, rfl⟩ := continues others found
  refine ⟨f before, after, ?_, behind, append before after behind⟩
  rw [scanned', found']
  rfl

theorem continues_of_closed {place : Place} {front : Text}
    (parity : Even (front.count '\'' + place.inside.toNat)) (first : front.getLast? ≠ some '\'')
    (literal : ∀ after, scan .outside rest = .ok after → startsWithField after = false) :
    Continues place front rest := by
  fun_induction scan place front with
  | case1 => exact fun tokens h => ⟨[], tokens, rfl, h, rfl⟩
  | case2 place inside =>
    rw [Place.inside_of_ne inside] at parity
    exact absurd parity (by simp)
  | case3 front ih => exact ih (even_count_quote.1 parity) (getLast?_tail first)
  | case4 c front other alpha field letter ih =>
    have tail := ih ((even_count_other other).1 parity) (getLast?_tail first)
    exact tail.of_tail (scan_outside_letter letter _) (scan_outside_letter letter _)
      fun _ after behind => consLetter_append (literal after behind)
  | case5 c front other alpha noLetter =>
    intro tokens h
    rw [List.cons_append, scan, if_neg other, if_pos alpha, noLetter] at h
    cases h
  | case6 c front other noAlpha ih =>
    have tail := ih ((even_count_other other).1 parity) (getLast?_tail first)
    exact tail.of_tail (scan_outside_cons other noAlpha _) (scan_outside_cons other noAlpha _)
      fun _ _ _ => rfl
  | case7 place front inside ih =>
    have parity' := even_count_quote.1 (even_count_quote.1 parity)
    rw [Bool.not_not, Place.inside_of_ne inside] at parity'
    have tail := ih parity' (getLast?_tail (getLast?_tail first))
    exact tail.of_tail (scan_inside_pair inside _) (scan_inside_pair inside _) fun _ _ _ => rfl
  | case8 front single ih =>
    obtain ⟨alone, alone'⟩ := head?_append_of_single rest single first
    have tail := ih (even_count_quote.1 parity) (getLast?_tail first)
    exact tail.of_tail (scan_opened_quote alone') (scan_opened_quote alone) fun _ _ _ => rfl
  | case9 front single ih =>
    obtain ⟨alone, alone'⟩ := head?_append_of_single rest single first
    have tail := ih (even_count_quote.1 parity) (getLast?_tail first)
    intro tokens h
    rw [List.cons_append, scan_quoted_quote alone'] at h
    rw [scan_quoted_quote alone]
    exact tail tokens h
  | case10 place c front inside _ noQuote noQuote' ih =>
    have other : c ≠ '\'' := by
      cases place with
      | outside => exact absurd rfl inside
      | opened => exact noQuote rfl
      | quoted => exact noQuote' rfl
    have parity' := (even_count_other other).1 parity
    rw [Place.inside_of_ne inside] at parity'
    have tail := ih parity' (getLast?_tail first)
    exact tail.of_tail (scan_inside_cons inside other _) (scan_inside_cons inside other _)
      fun _ _ _ => rfl

end

section
variable {source front back : Text} {pairs : Nat} (run : EvenRun source front back pairs)
include run

theorem EvenRun.reading_eq : reading false source =
    reading false front ++ (quotes pairs ++ reading false back) := by
  obtain ⟨more, rfl⟩ := Nat.exists_eq_add_of_le' run.many
  have literal : startsWithField
      (reading false (List.replicate (2 * (more + 2)) '\'' ++ back)) = false := by
    rw [reading_pairs]
    rfl
  rw [run.text, @reading_append _ false front run.outside run.first literal, reading_pairs]

theorem EvenRun.exists_ofText {pattern : DatePattern} (accepted : ofText source = .ok pattern) :
    ∃ before after, ofText front = .ok before ∧ ofText back = .ok after ∧
      pattern.tokens = before.tokens ++ (quotes (pairs - 1) ++ after.tokens) := by
  obtain ⟨more, rfl⟩ := Nat.exists_eq_add_of_le' run.many
  rw [ofText_eq_scan] at accepted
  obtain ⟨tokens, scanned, rfl⟩ := exists_of_map_ok accepted
  have literal : ∀ rest, scan .outside (List.replicate (2 * (more + 2)) '\'' ++ back) = .ok rest →
      startsWithField rest = false := by
    intro rest h
    rw [scan_outside_even run.last] at h
    obtain ⟨after, -, rfl⟩ := exists_of_map_ok h
    rfl
  rw [run.text] at scanned
  obtain ⟨before, rest, front', rest', rfl⟩ :=
    @continues_of_closed _ .outside front run.outside run.first literal tokens scanned
  rw [scan_outside_even run.last] at rest'
  obtain ⟨after, back', rfl⟩ := exists_of_map_ok rest'
  refine ⟨⟨front, before⟩, ⟨back, after⟩, ?_, ?_, rfl⟩
  · rw [ofText_eq_scan, front']
    rfl
  · rw [ofText_eq_scan, back']
    rfl

theorem EvenRun.length_lt : front.length < source.length ∧ back.length < source.length := by
  have many := run.many
  rw [run.text]
  simp only [List.length_append, List.length_replicate]
  omega

end

theorem length_tokens_le {source : Text} {pattern : DatePattern}
    (accepted : ofText source = .ok pattern) :
    pattern.tokens.length ≤ (reading false source).length := by
  induction length : source.length using Nat.strong_induction_on generalizing source pattern with
  | _ n ih =>
    by_cases none : ∀ front back pairs, ¬EvenRun source front back pairs
    · rw [tokens_eq_reading none accepted]
    · push Not at none
      obtain ⟨front, back, pairs, run⟩ := none
      obtain ⟨before, after, front', back', tokens⟩ := run.exists_ofText accepted
      obtain ⟨shorter, shorter'⟩ := run.length_lt
      have few := ih _ (length ▸ shorter) front' rfl
      have few' := ih _ (length ▸ shorter') back' rfl
      rw [tokens, run.reading_eq]
      simp only [List.length_append, List.length_replicate]
      omega

theorem EvenRun.tokens_ne {source front back : Text} {pairs : Nat}
    (run : EvenRun source front back pairs) {pattern : DatePattern}
    (accepted : ofText source = .ok pattern) : pattern.tokens ≠ reading false source := by
  obtain ⟨before, after, front', back', tokens⟩ := run.exists_ofText accepted
  have few := length_tokens_le front'
  have few' := length_tokens_le back'
  have many := run.many
  intro same
  have length := congrArg List.length same
  rw [tokens, run.reading_eq] at length
  simp only [List.length_append, List.length_replicate] at length
  omega

/-- The tokens of a pattern are those of the rule if and only if no even number of quotes, four or
more, stand side by side outside of quoted text. Where they do, what is in front of them and what
is behind them are patterns of their own, and between these one quote is lost. -/
theorem tokens_eq_reading_iff {source : Text} {pattern : DatePattern}
    (accepted : ofText source = .ok pattern) :
    (pattern.tokens = reading false source ↔
      ∀ front back pairs, ¬EvenRun source front back pairs) ∧
    ∀ front back pairs, EvenRun source front back pairs →
      reading false source = reading false front ++ (quotes pairs ++ reading false back) ∧
      ∃ before after, ofText front = .ok before ∧ ofText back = .ok after ∧
        pattern.tokens = before.tokens ++ (quotes (pairs - 1) ++ after.tokens) := by
  refine ⟨⟨?_, fun none => tokens_eq_reading none accepted⟩, ?_⟩
  · intro same front back pairs run
    exact run.tokens_ne accepted same
  · intro front back pairs run
    exact ⟨run.reading_eq, run.exists_ofText accepted⟩

theorem tokens_eq_reading_iff_four_quotes :
    let pattern : DatePattern := ⟨"y''''M".toList, [.field .year 1, .literal '\'', .field .month 1]⟩
    let other : DatePattern := ⟨"'T'''M".toList, [.literal 'T', .literal '\'', .field .month 1]⟩
    ofText "y''''M".toList = .ok pattern ∧ EvenRun "y''''M".toList "y".toList "M".toList 2 ∧
      pattern.tokens ≠ reading false "y''''M".toList ∧
      reading false "y''''M".toList =
        [.field .year 1, .literal '\'', .literal '\'', .field .month 1] ∧
      ofText "'T'''M".toList = .ok other ∧ other.tokens = reading false "'T'''M".toList ∧
      ∀ front back pairs, ¬EvenRun "'T'''M".toList front back pairs := by
  intro pattern other
  have accepted : ofText "y''''M".toList = .ok pattern := rfl
  have accepted' : ofText "'T'''M".toList = .ok other := rfl
  have run : EvenRun "y''''M".toList "y".toList "M".toList 2 :=
    ⟨rfl, by decide, by decide, by decide, le_rfl⟩
  have same : other.tokens = reading false "'T'''M".toList := rfl
  obtain ⟨by_rule, -⟩ := (tokens_eq_reading_iff accepted).2 _ _ _ run
  have differ : pattern.tokens ≠ reading false "y''''M".toList := fun equal =>
    (tokens_eq_reading_iff accepted).1.1 equal _ _ _ run
  exact ⟨accepted, run, differ, by_rule, accepted', same,
    (tokens_eq_reading_iff accepted').1.1 same⟩

end Almanac.DatePattern
