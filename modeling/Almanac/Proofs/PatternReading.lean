import Almanac.PatternScan
import Almanac.Proofs.FieldValues
import Almanac.Proofs.GreatestSplit

/-! Text read by a pattern, told by its splits alone. The greatest split decides: no other one is
tried if its values are refused. Main statement: a pattern that is accepted reads nothing where
there is no split, and otherwise reads exactly the instant that the values of the greatest split
name on a clock of the zone, up to the end of that split. -/

namespace Almanac.DatePattern

theorem read_by_greatestSplit {source : Text} {pattern : DatePattern}
    (accepted : ofText source = .ok pattern) {text : Text} {position : Nat}
    (inside : position ≤ text.length) (offset : Int) :
    ((∀ pieces, ¬Split pattern.tokens (text.drop position) pieces) →
      pattern.read text position (.fixed offset) = .ok none) ∧
    ((∃ pieces, Split pattern.tokens (text.drop position) pieces) →
      ∃! pieces, GreatestSplit pattern.tokens (text.drop position) pieces) ∧
    ∀ pieces, GreatestSplit pattern.tokens (text.drop position) pieces →
      Short pattern.tokens pieces →
      (¬((writtenValues pattern.tokens pieces).Valid ∧
          Reading.InYears ((writtenValues pattern.tokens pieces).micros - offset)) →
        pattern.read text position (.fixed offset) = .ok none) ∧
      ((writtenValues pattern.tokens pieces).Valid →
        Reading.InYears ((writtenValues pattern.tokens pieces).micros - offset) →
        ∃ utc : Reading, utc.micros = (writtenValues pattern.tokens pieces).micros - offset ∧
          pattern.read text position (.fixed offset) =
            .ok (some ⟨.ofUtc utc, (position + pieces.flatten.length : Nat)⟩)) := by
  have separate := separate_of_ofText accepted
  refine ⟨fun none => ?_, fun some => ?_, fun pieces greatest short => ?_⟩
  · exact read_of_no_split inside _ (split?_eq_none separate none)
  · obtain ⟨other, split⟩ := some
    obtain ⟨pieces, found, -⟩ := exists_split?_ge split
    have greatest := greatestSplit_of_split? separate found
    exact ⟨pieces, greatest, fun _ also => also.unique greatest⟩
  · have read := read_of_split? inside offset (split?_of_greatestSplit separate greatest)
      greatest.split short
    refine ⟨fun refused => ?_, fun valid years => ?_⟩
    · rw [read]
      by_cases valid : (writtenValues pattern.tokens pieces).Valid
      · have outside := Reading.ofMicros?_of_not_inYears fun years => refused ⟨valid, years⟩
        rw [FieldValues.toUtc?_of_valid offset valid, outside]
        rfl
      · rw [FieldValues.toUtc?_of_not_valid offset valid]
        rfl
    · obtain ⟨utc, count, found⟩ := Reading.ofMicros?_of_inYears years
      refine ⟨utc, count, ?_⟩
      rw [read, FieldValues.toUtc?_of_valid offset valid, found]
      rfl

theorem read_by_greatestSplit_digit_literal :
    ofText "y1".toList = .ok ⟨"y1".toList, [.field .year 1, .literal '1']⟩ ∧
      1 ≤ ">20211".toList.length ∧
      ∃ utc : Reading, utc.micros = 1609455600000000 ∧
        read ⟨"y1".toList, [.field .year 1, .literal '1']⟩ ">20211".toList 1 (.fixed 3600000000) =
          .ok (some ⟨.ofUtc utc, 6⟩) := by
  have accepted : ofText "y1".toList = .ok ⟨"y1".toList, [.field .year 1, .literal '1']⟩ := rfl
  have inside : 1 ≤ ">20211".toList.length := by decide
  have greatest : GreatestSplit [.field .year 1, .literal '1'] (">20211".toList.drop 1)
      ["2021".toList, "1".toList] :=
    greatestSplit_of_split? (separate_of_ofText accepted) (by decide)
  have short : Short [.field .year 1, .literal '1'] ["2021".toList, "1".toList] := by
    intro field
    cases field <;> decide
  have values : writtenValues [.field .year 1, .literal '1'] ["2021".toList, "1".toList] =
      { year := 2021 } := by decide
  have count : ({ year := 2021 } : FieldValues).micros - 3600000000 = 1609455600000000 := by decide
  have answer := ((read_by_greatestSplit accepted inside 3600000000).2.2 _ greatest short).2
  rw [values, count] at answer
  obtain ⟨utc, instant, found⟩ := answer (by decide) (Reading.inYears_iff.2 (by decide))
  exact ⟨accepted, inside, utc, instant, found⟩

end Almanac.DatePattern
