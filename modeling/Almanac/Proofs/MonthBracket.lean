import Almanac.Proofs.MonthRollover

/-! Whole months between two dates. The search for them is described as a run of its loop, begun at
an estimate and ended by one of two conditions; a run is a finite derivation, so that a search which
has one comes to an end. The earlier date moved by the current number of months never passes the
later date: the estimate ensures it at the start, and a round that goes on keeps it. Main statement:
the number of months found is the only one whose date lies at the later date or before it, and
whose next date lies after it. -/

namespace Almanac.MonthShift

def Settled (later earlier months : Int) : Prop :=
  later ≤ addMonths earlier months ∨ later < addMonths earlier (months + 1)

inductive Search (later earlier : Int) : Int → Int → Prop where
  | stop {months : Int} : Settled later earlier months → Search later earlier months months
  | next {months found : Int} : ¬Settled later earlier months →
      Search later earlier (months + 1) found → Search later earlier months found

/-- The date moved by so many months is the last one that does not pass the later date. -/
def Brackets (later earlier months : Int) : Prop :=
  addMonths earlier months ≤ later ∧ later < addMonths earlier (months + 1)

theorem eq_of_brackets {shift : Int → Int} (mono : StrictMono shift) {value first second : Int}
    (h : shift first ≤ value ∧ value < shift (first + 1))
    (h' : shift second ≤ value ∧ value < shift (second + 1)) : first = second := by
  have upper := mono.lt_iff_lt.mp (h.1.trans_lt h'.2)
  have lower := mono.lt_iff_lt.mp (h'.1.trans_lt h.2)
  omega

theorem Brackets.unique {later earlier first second : Int} (h : Brackets later earlier first)
    (h' : Brackets later earlier second) : first = second :=
  eq_of_brackets (addMonths_strictMono earlier) h h'

theorem search_probe (later earlier months : Int) :
    Search later earlier months (probe later earlier months) := by
  fun_induction probe later earlier months with
  | case1 months settled => exact .stop settled
  | case2 months unsettled ih => exact .next unsettled ih

theorem addMonths_succ_le_of_not_settled {later earlier months : Int}
    (h : ¬Settled later earlier months) : addMonths earlier (months + 1) ≤ later := by
  unfold Settled at h
  omega

theorem Settled.brackets {later earlier months : Int} (h : Settled later earlier months)
    (below : addMonths earlier months ≤ later) : Brackets later earlier months := by
  refine ⟨below, ?_⟩
  rcases h with reached | passed
  -- the date has not passed the later one, so that it has reached it exactly
  · rw [← below.antisymm reached]
    exact addMonths_lt_succ earlier months
  · exact passed

theorem Search.brackets {later earlier months found : Int}
    (run : Search later earlier months found) (below : addMonths earlier months ≤ later) :
    Brackets later earlier found := by
  induction run with
  | stop settled => exact settled.brackets below
  | next unsettled _ ih => exact ih (addMonths_succ_le_of_not_settled unsettled)

theorem Search.le {later earlier months found : Int} (run : Search later earlier months found) :
    months ≤ found := by
  induction run with
  | stop => exact Int.le_refl _
  | next _ _ ih => omega

theorem addMonths_estimate_le {later earlier : Int} (h : earlier ≤ later) :
    addMonths earlier ((later - earlier) / 31) ≤ later := by
  have estimate : 0 ≤ (later - earlier) / 31 := by omega
  have bound := addMonths_le_add earlier estimate
  omega

theorem subtractMonths_brackets (date0 date1 : Int) :
    (date1 ≤ date0 →
      Search date0 date1 ((date0 - date1) / 31) (subtractMonths date0 date1).1 ∧
      0 ≤ (subtractMonths date0 date1).1 ∧
      ∀ months, (addMonths date1 months ≤ date0 ∧ date0 < addMonths date1 (months + 1)) ↔
        months = (subtractMonths date0 date1).1) ∧
    (date0 < date1 → (subtractMonths date0 date1).1 = -(subtractMonths date1 date0).1) := by
  constructor
  · intro order
    have run := search_probe date0 date1 ((date0 - date1) / 31)
    have found := run.brackets (addMonths_estimate_le order)
    have grown := run.le
    rw [subtractMonths, if_neg (by omega)]
    refine ⟨run, ?_, fun months => ⟨fun h => ?_, fun h => ?_⟩⟩
    · simp only [countMonths]
      omega
    · exact Brackets.unique h found
    · exact h ▸ found
  · intro order
    rw [subtractMonths, subtractMonths, if_pos order, if_neg (by omega)]

theorem subtractMonths_brackets_rollover :
    (16831 : Int) ≤ 16861 ∧ (subtractMonths 16861 16831).1 = 1 ∧
      (16831 : Int) < 16861 ∧ (subtractMonths 16831 16861).1 = -1 := by
  have one : (subtractMonths 16861 16831).1 = 1 :=
    (((subtractMonths_brackets 16861 16831).1 (by decide)).2.2 1).mp (by decide) |>.symm
  have back := (subtractMonths_brackets 16831 16861).2 (by decide)
  rw [one] at back
  exact ⟨by decide, one, by decide, back⟩

end Almanac.MonthShift
