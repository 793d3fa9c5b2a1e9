import Almanac.Proofs.MonthOrder
import Almanac.Proofs.TimestampOrder

/-! Whole months between two timestamps. Timestamps are ordered by date and then by time of day, and
moving one by months keeps its time of day. A count of months between the dates is one too large if
it leads to the date of the end but past its time of day; no other correction is needed, since one
month less leads to an earlier date. Main statements: the months found are the only ones that lead
to the end or before it while one more leads past it, if the dates are in order; and a later end
has fewer months in one case only, that of an end that lies before the start, short of its time of
day. -/

namespace Almanac.MonthShift
open Timestamp

theorem date_addMonthsTimestamp (timestamp months : Int) :
    date (addMonthsTimestamp timestamp months) = addMonths (date timestamp) months :=
  date_onDate _ (inDay_time timestamp)

theorem time_addMonthsTimestamp (timestamp months : Int) :
    time (addMonthsTimestamp timestamp months) = time timestamp :=
  time_onDate _ (inDay_time timestamp)

theorem addMonthsTimestamp_le_iff {earlier later months : Int} :
    addMonthsTimestamp earlier months ≤ later ↔
      addMonths (date earlier) months < date later ∨
        addMonths (date earlier) months = date later ∧ time earlier ≤ time later := by
  rw [le_iff, date_addMonthsTimestamp, time_addMonthsTimestamp]

theorem lt_addMonthsTimestamp_of_date_lt {earlier later months : Int}
    (h : date later < addMonths (date earlier) months) :
    later < addMonthsTimestamp earlier months := by
  rw [← not_le, addMonthsTimestamp_le_iff]
  omega

theorem strictMono_addMonthsTimestamp (timestamp : Int) :
    StrictMono (addMonthsTimestamp timestamp) := by
  intro few more order
  apply lt_addMonthsTimestamp_of_date_lt
  rw [date_addMonthsTimestamp]
  exact addMonths_strictMono (date timestamp) order

/-- The months between the dates lead to the date of the end, but past its time of day. -/
def Overshoots (stop start : Int) : Prop :=
  addMonths (date start) (subtractMonths (date stop) (date start)).1 = date stop ∧
    time stop < time start

theorem subtractMonthsTimestamp_cases (stop start : Int) :
    Overshoots stop start ∧ (subtractMonthsTimestamp stop start).1 =
        (subtractMonths (date stop) (date start)).1 - 1 ∨
      ¬Overshoots stop start ∧ (subtractMonthsTimestamp stop start).1 =
        (subtractMonths (date stop) (date start)).1 := by
  simp only [subtractMonthsTimestamp]
  split
  · next beyond => exact .inl ⟨beyond, rfl⟩
  · next within => exact .inr ⟨within, rfl⟩

/-- The timestamp moved by so many months is the last one that does not pass the end. -/
def BracketsTimestamp (stop start months : Int) : Prop :=
  addMonthsTimestamp start months ≤ stop ∧ stop < addMonthsTimestamp start (months + 1)

theorem Overshoots.brackets {stop start : Int} (h : Overshoots stop start) :
    BracketsTimestamp stop start ((subtractMonths (date stop) (date start)).1 - 1) := by
  obtain ⟨sameDate, tooEarly⟩ := h
  have before := addMonths_strictMono (date start)
    (sub_one_lt (subtractMonths (date stop) (date start)).1)
  constructor
  · exact addMonthsTimestamp_le_iff.2 (.inl (before.trans_eq sameDate))
  · rw [← not_le, addMonthsTimestamp_le_iff, Int.sub_add_cancel]
    omega

theorem bracketsTimestamp_of_not_overshoots {stop start : Int} (order : date start ≤ date stop)
    (within : ¬Overshoots stop start) :
    BracketsTimestamp stop start (subtractMonths (date stop) (date start)).1 := by
  obtain ⟨reached, passed⟩ := brackets_subtractMonths order
  refine ⟨addMonthsTimestamp_le_iff.2 ?_, lt_addMonthsTimestamp_of_date_lt passed⟩
  unfold Overshoots at within
  omega

theorem bracketsTimestamp_subtractMonthsTimestamp {stop start : Int}
    (order : date start ≤ date stop) :
    BracketsTimestamp stop start (subtractMonthsTimestamp stop start).1 := by
  rcases subtractMonthsTimestamp_cases stop start with ⟨beyond, count⟩ | ⟨within, count⟩
  · rw [count]
    exact beyond.brackets
  · rw [count]
    exact bracketsTimestamp_of_not_overshoots order within

theorem subtractMonthsTimestamp_brackets {stop start : Int} (order : date start ≤ date stop)
    (months : Int) :
    (addMonthsTimestamp start months ≤ stop ∧ stop < addMonthsTimestamp start (months + 1)) ↔
      months = (subtractMonthsTimestamp stop start).1 := by
  have found := bracketsTimestamp_subtractMonthsTimestamp order
  constructor
  · intro brackets
    exact eq_of_brackets (strictMono_addMonthsTimestamp start) brackets found
  · rintro rfl
    exact found

theorem subtractMonthsTimestamp_brackets_rollover :
    date 1454241600000 ≤ date 1456830000000 ∧
      (subtractMonthsTimestamp 1456830000000 1454241600000).1 = 0 ∧
      date 43200000 ≤ date 0 ∧ (subtractMonthsTimestamp 0 43200000).1 = -1 := by
  have order : date 1454241600000 ≤ date 1456830000000 := by decide
  have sameDate : date 43200000 ≤ date 0 := by decide
  have none := (subtractMonthsTimestamp_brackets order 0).1 ⟨by decide, by decide⟩
  have back := (subtractMonthsTimestamp_brackets sameDate (-1)).1 ⟨by decide, by decide⟩
  exact ⟨order, none.symm, sameDate, back.symm⟩

/-- The end lies on the date that the months lead to, before the time of day of the start; the
other end lies on an earlier date, as many months away from the start's. -/
def Overtaken (earlier later start : Int) : Prop :=
  Overshoots later start ∧ date earlier < date later ∧
    (subtractMonths (date earlier) (date start)).1 = (subtractMonths (date later) (date start)).1

theorem Overtaken.date_lt {earlier later start : Int} (h : Overtaken earlier later start) :
    date earlier < date start := by
  obtain ⟨⟨sameDate, -⟩, order, sameMonths⟩ := h
  -- from the start on, a date as many months away would not lie before the date they lead to
  by_contra inOrder
  have reached := (brackets_subtractMonths (not_lt.1 inOrder)).1
  rw [sameMonths, sameDate] at reached
  omega

theorem Overtaken.not_overshoots {earlier later start : Int} (h : Overtaken earlier later start) :
    ¬Overshoots earlier start := by
  obtain ⟨⟨sameDate, -⟩, order, sameMonths⟩ := h
  rintro ⟨otherDate, -⟩
  rw [sameMonths, sameDate] at otherDate
  omega

theorem subtractMonthsTimestamp_of_overtaken {earlier later start : Int}
    (h : Overtaken earlier later start) :
    (subtractMonthsTimestamp later start).1 = (subtractMonthsTimestamp earlier start).1 - 1 := by
  obtain ⟨-, count⟩ | ⟨within, -⟩ := subtractMonthsTimestamp_cases later start
  · obtain ⟨beyond, -⟩ | ⟨-, count'⟩ := subtractMonthsTimestamp_cases earlier start
    · exact absurd beyond h.not_overshoots
    · rw [count, count', h.2.2]
  · exact absurd h.1 within

theorem subtractMonthsTimestamp_le_of_not_overtaken {earlier later start : Int}
    (order : earlier ≤ later) (h : ¬Overtaken earlier later start) :
    (subtractMonthsTimestamp earlier start).1 ≤ (subtractMonthsTimestamp later start).1 := by
  have dates := date_mono order
  have months := monotone_subtractMonths (date start) dates
  dsimp only at months
  obtain ⟨beyond, count⟩ | ⟨-, count⟩ := subtractMonthsTimestamp_cases later start
  · obtain ⟨-, count'⟩ | ⟨within, count'⟩ := subtractMonthsTimestamp_cases earlier start
    · omega
    · -- as many months for both ends would mean one date, on which the earlier end falls short too
      have fewer : (subtractMonths (date earlier) (date start)).1 ≠
          (subtractMonths (date later) (date start)).1 := by
        intro same
        rcases dates.lt_or_eq with before | sameDate
        · exact h ⟨beyond, before, same⟩
        · have times := ((le_iff earlier later).1 order).resolve_left sameDate.not_lt
          refine within ⟨?_, times.2.trans_lt beyond.2⟩
          rw [sameDate]
          exact beyond.1
      omega
  · obtain ⟨-, count'⟩ | ⟨-, count'⟩ := subtractMonthsTimestamp_cases earlier start <;> omega

theorem subtractMonthsTimestamp_le_iff {earlier later : Int} (order : earlier ≤ later)
    (start : Int) :
    ((subtractMonthsTimestamp earlier start).1 ≤ (subtractMonthsTimestamp later start).1 ↔
        ¬Overtaken earlier later start) ∧
      (Overtaken earlier later start → date earlier < date start ∧
        (subtractMonthsTimestamp later start).1 =
          (subtractMonthsTimestamp earlier start).1 - 1) := by
  refine ⟨⟨fun less overtaken => ?_, subtractMonthsTimestamp_le_of_not_overtaken order⟩,
    fun overtaken => ⟨overtaken.date_lt, subtractMonthsTimestamp_of_overtaken overtaken⟩⟩
  have drop := subtractMonthsTimestamp_of_overtaken overtaken
  omega

theorem subtractMonthsTimestamp_le_iff_february :
    (1452816000000 : Int) ≤ 1454284800000 ∧
      Overtaken 1452816000000 1454284800000 1456833600000 ∧
      date 1452816000000 < date 1456833600000 ∧
      (subtractMonthsTimestamp 1454284800000 1456833600000).1 =
        (subtractMonthsTimestamp 1452816000000 1456833600000).1 - 1 := by
  have order : (1452816000000 : Int) ≤ 1454284800000 := by decide
  have january : (subtractMonths 16815 16861).1 = -1 :=
    subtractMonths_of_brackets (by decide) ⟨by decide, by decide⟩
  have february : (subtractMonths 16832 16861).1 = -1 :=
    subtractMonths_of_brackets (by decide) ⟨by decide, by decide⟩
  have overtaken : Overtaken 1452816000000 1454284800000 1456833600000 := by
    refine ⟨⟨?_, by decide⟩, by decide, january.trans february.symm⟩
    show addMonths 16861 (subtractMonths 16832 16861).1 = 16832
    rw [february]
    decide
  exact ⟨order, overtaken, (subtractMonthsTimestamp_le_iff order 1456833600000).2 overtaken⟩

/-- From noon of 1970-01-01, the midnight half a day before counts a month back and the midnight of
the day before none. -/
theorem not_monotone_subtractMonthsTimestamp :
    (subtractMonthsTimestamp (-86400000) 43200000).1 = 0 ∧
      (subtractMonthsTimestamp 0 43200000).1 = -1 ∧
      ¬Monotone fun stop => (subtractMonthsTimestamp stop 43200000).1 := by
  have dayBefore : (subtractMonths (-1) 0).1 = 0 :=
    (subtractMonths_of_brackets (by decide) ⟨by decide, by decide⟩).trans neg_zero
  have sameDay : (subtractMonths 0 0).1 = 0 := subtractMonths_self 0
  have overtaken : Overtaken (-86400000) 0 43200000 := by
    refine ⟨⟨?_, by decide⟩, by decide, dayBefore.trans sameDay.symm⟩
    show addMonths 0 (subtractMonths 0 0).1 = 0
    rw [sameDay]
    decide
  have back : (subtractMonthsTimestamp 0 43200000).1 = -1 :=
    eq_of_brackets (strictMono_addMonthsTimestamp 43200000)
      (bracketsTimestamp_subtractMonthsTimestamp (by decide)) ⟨by decide, by decide⟩
  have none : (subtractMonthsTimestamp (-86400000) 43200000).1 = 0 := by
    have drop := subtractMonthsTimestamp_of_overtaken overtaken
    omega
  refine ⟨none, back, fun monotone => ?_⟩
  have less := monotone (show (-86400000 : Int) ≤ 0 by decide)
  dsimp only at less
  omega

end Almanac.MonthShift
