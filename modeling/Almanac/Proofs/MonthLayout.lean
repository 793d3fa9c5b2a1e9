import Mathlib
import Almanac.Field
import Almanac.MonthView
import Almanac.Proofs.IsoThursday
import Almanac.Proofs.MonthOfDay
import Almanac.Proofs.PaddedNumber

/-! The text of a month, read again by lines and words. Blanks keep the words of a line apart, so
that the width of a column is nothing to its reader. The seven days from a Monday on have one
Thursday, and with it one ISO week and year. Years whose digits are as many as a number may have
begin on the same weekdays as all years of their place in 400 years, so that no week of theirs
belongs to a year with more digits. Main statement: unless its year is too long, a month's rows show
its days in order, each once and in the column of its weekday, under labels that hold for all their
seven days. -/

namespace Almanac.IsoWeek

theorem thursday_of_monday {monday weekday : Int} (h : daysSinceMonday monday = 0)
    (low : 0 ≤ weekday) (high : weekday < 7) :
    daysSinceMonday (monday + weekday) = weekday ∧
      thursday (monday + weekday) = thursday monday := by
  simp only [thursday, daysSinceMonday] at *
  omega

theorem week_year_of_thursday {first second : Int} (same : thursday first = thursday second) :
    week first = week second ∧ year first = year second := by
  have sameYear : thursdayYear first = thursdayYear second := by
    rw [thursdayYear, same, thursdayYear]
  constructor
  · rw [week_eq, week_eq, weekSince_eq, weekSince_eq, sameYear, same]
  · rw [year_eq, year_eq, sameYear]

theorem daysSinceMonday_newYear {year : Int} (h : 400 ∣ year) :
    daysSinceMonday (newYear year) = 5 := by
  obtain ⟨cycles, rfl⟩ := h
  rw [newYear_eq]
  unfold daysSinceMonday MarchYear.daysBefore marchEpochJulian
  omega

theorem year_le_of_dvd {julian : Int} (h : 400 ∣ (CalendarDate.ofJulian julian).year + 1) :
    year julian ≤ (CalendarDate.ofJulian julian).year := by
  generalize same : (CalendarDate.ofJulian julian).year = calendarYear at h
  have before := (year_ofJulian_eq_iff.1 same).2
  have saturday := daysSinceMonday_newYear h
  have inside := thursdayYear_eq_iff.1 (year_eq julian).symm
  by_contra after
  have := newYear_mono (show calendarYear + 1 ≤ year julian by omega)
  unfold thursday daysSinceMonday at *
  omega

theorem le_year_of_dvd {julian : Int} (h : 400 ∣ (CalendarDate.ofJulian julian).year - 1) :
    (CalendarDate.ofJulian julian).year ≤ year julian := by
  generalize same : (CalendarDate.ofJulian julian).year = calendarYear at h
  have behind := (year_ofJulian_eq_iff.1 same).1
  have saturday := daysSinceMonday_newYear h
  have leap : IsLeapYear (calendarYear - 1) := by
    unfold IsLeapYear
    omega
  have turn := newYear_succ (calendarYear - 1)
  have inside := thursdayYear_eq_iff.1 (year_eq julian).symm
  rw [if_pos leap, Int.sub_add_cancel] at turn
  by_contra before
  have := newYear_mono (show year julian + 1 ≤ calendarYear by omega)
  unfold thursday daysSinceMonday at *
  omega

theorem digitCount_year_le {julian : Int}
    (short : Numeral.digitCount (CalendarDate.ofJulian julian).year ≤ Numeral.maxDigits) :
    Numeral.digitCount (year julian) ≤ Numeral.maxDigits := by
  have cycles : (400 : Int) ∣ 10 ^ Numeral.maxDigits :=
    dvd_trans (by decide : (400 : Int) ∣ 10 ^ 4) (pow_dvd_pow 10 (by decide))
  have late := @year_le_of_dvd julian
  have early := @le_year_of_dvd julian
  have cases := @thursdayYear_cases julian _ rfl
  rw [← year_eq] at cases
  rw [Numeral.digitCount_le_maxDigits_iff, abs_lt] at short ⊢
  generalize (10 : Int) ^ Numeral.maxDigits = limit at *
  omega

end Almanac.IsoWeek

namespace Almanac.Text

def words (line : Text) : List Text := (line.splitOn ' ').filter (· ≠ [])

theorem words_append (front back : Text) :
    words (front ++ ' ' :: back) = words front ++ words back := by
  rw [words, List.splitOn_append_cons_self, List.filter_append, words, words]

theorem words_eq_single {word : Text} (h : ' ' ∉ word) (nonempty : word ≠ []) :
    words word = [word] := by
  simp [words, List.splitOn_eq_singleton h, nonempty]

theorem words_blank (line : Text) : words (' ' :: line) = words line := by
  have blank := words_append [] line
  rwa [List.nil_append] at blank

theorem words_leftpad (width : Nat) (line : Text) :
    words (line.leftpad width ' ') = words line := by
  rw [List.leftpad]
  generalize width - line.length = blanks
  induction blanks with
  | zero => rfl
  | succ blanks ih => rw [List.replicate_succ, List.cons_append, words_blank, ih]

theorem words_join (texts : List Text) : words (join [' '] texts) = texts.flatMap words := by
  induction texts with
  | nil => rfl
  | cons first rest ih =>
    by_cases last : rest = []
    · simp [last, join]
    · rw [join, List.intercalate_cons_of_ne_nil last, List.append_assoc, List.singleton_append,
        words_append, ← join, ih, List.flatMap_cons]

theorem not_mem_join {c : Char} {separator : Text} {texts : List Text} (h : c ∉ separator)
    (h' : ∀ text ∈ texts, c ∉ text) : c ∉ join separator texts := by
  induction texts with
  | nil => exact List.not_mem_nil
  | cons first rest ih =>
    have outside := ih fun text member => h' text (List.mem_cons_of_mem _ member)
    have here := h' first List.mem_cons_self
    by_cases last : rest = []
    · rwa [last, join, List.intercalate_singleton]
    · rw [join, List.intercalate_cons_of_ne_nil last, ← join]
      simp [here, h, outside]

end Almanac.Text

namespace Almanac.MonthView

theorem flatMap_range_seven {α : Type} (cell : Nat → α) (weeks : Nat) :
    (List.range weeks).flatMap (fun week => (List.range 7).map fun day => cell (7 * week + day)) =
      (List.range (7 * weeks)).map cell := by
  induction weeks with
  | zero => rfl
  | succ weeks ih =>
    rw [List.range_succ (n := weeks), List.flatMap_append, ih, Nat.mul_succ, List.range_add,
      List.map_append, List.flatMap_singleton, List.map_map]
    rfl

theorem reduceOption_filled {α : Type} {cell : Nat → Option α} {value : Nat → α}
    {before filled behind : Nat} (front : ∀ place < before, cell place = none)
    (inside : ∀ place < filled, cell (before + place) = some (value place))
    (rest : ∀ place < behind, cell (before + filled + place) = none) :
    ((List.range (before + filled + behind)).map cell).reduceOption =
      (List.range filled).map value := by
  simp only [← List.mem_range] at front inside rest
  rw [List.reduceOption, List.filterMap_map, Function.id_comp, List.range_add, List.range_add]
  simp only [List.filterMap_append, List.filterMap_map, Function.comp_def]
  rw [List.filterMap_eq_nil_iff.2 front, List.filterMap_eq_nil_iff.2 rest,
    List.filterMap_congr inside, List.nil_append, List.append_nil]
  exact congrFun List.filterMap_eq_map' _

def cellOf (year month unixDate : Int) : Option Int :=
  let date := CalendarDate.ofUnix unixDate
  if date.year = year ∧ date.month = month then some date.day else none

def weekRow (year month monday : Int) : WeekRow where
  week := IsoWeek.week (monday + epochJulian)
  year := IsoWeek.year (monday + epochJulian)
  days := (List.range 7).map fun (weekday : Nat) => cellOf year month (monday + weekday)

def firstDate (year month : Int) : Int := CalendarDate.toUnix ⟨year, month, 1⟩

def lastDate (year month : Int) : Int := firstDate year month + daysInMonth year month - 1

def startDate (year month : Int) : Int :=
  firstDate year month - IsoWeek.daysSinceMonday (firstDate year month + epochJulian)

def rowCount (year month : Int) : Nat :=
  ((lastDate year month - startDate year month) / 7 + 1).toNat

theorem firstDate_eq_firstDay (year month : Int) :
    firstDate year month = MonthIndex.firstDay (12 * year + month - 1) :=
  MonthIndex.toUnix_first year month

theorem startDate_bounds (year month : Int) :
    startDate year month ≤ firstDate year month ∧
      firstDate year month ≤ startDate year month + 6 := by
  unfold startDate IsoWeek.daysSinceMonday
  omega

section
variable {year month : Int} (low : 1 ≤ month) (high : month ≤ 12)
include low high

theorem inMonth_iff (unixDate : Int) :
    firstDate year month ≤ unixDate ∧ unixDate ≤ lastDate year month ↔
      (CalendarDate.ofUnix unixDate).year = year ∧
        (CalendarDate.ofUnix unixDate).month = month := by
  have inYear : MonthIndex.year (12 * year + month - 1) = year := by
    unfold MonthIndex.year
    omega
  have inMonth : MonthIndex.month (12 * year + month - 1) = month := by
    unfold MonthIndex.month
    omega
  have turn := MonthIndex.firstDay_succ (12 * year + month - 1)
  rw [MonthIndex.length, inYear, inMonth, ← firstDate_eq_firstDay] at turn
  have fromFirst := @MonthIndex.firstDay_le_iff (12 * year + month - 1) unixDate
  have fromNext := @MonthIndex.firstDay_le_iff (12 * year + month - 1 + 1) unixDate
  rw [← firstDate_eq_firstDay] at fromFirst
  rw [turn] at fromNext
  obtain ⟨low', high', -, -⟩ := CalendarDate.valid_ofUnix unixDate
  simp only [MonthIndex.ofUnix, MonthIndex.ofDate] at fromFirst fromNext
  unfold lastDate
  omega

theorem cellOf_eq (unixDate : Int) :
    cellOf year month unixDate =
      if firstDate year month ≤ unixDate ∧ unixDate ≤ lastDate year month then
        some (unixDate - firstDate year month + 1) else none := by
  simp only [cellOf, ← inMonth_iff low high]
  split
  · next inside =>
    obtain ⟨sameYear, sameMonth⟩ := (inMonth_iff low high unixDate).1 inside
    have count := MonthIndex.eq_firstDay_add_day unixDate
    rw [MonthIndex.ofUnix, MonthIndex.ofDate, sameYear, sameMonth, ← firstDate_eq_firstDay] at count
    congr 1
    omega
  · rfl

theorem ofMonth?_eq : ofMonth? year month =
    some ⟨year, month, (List.range (rowCount year month)).map fun (week : Nat) =>
      weekRow year month (startDate year month + 7 * week)⟩ := by
  have row : ∀ monday, rowOf (firstDate year month) (lastDate year month) monday =
      weekRow year month monday := by
    intro monday
    simp only [rowOf, weekRow, inMonth_iff low high]
    rfl
  simp only [← row]
  rw [ofMonth?, monthLength?, if_pos ⟨low, high⟩]
  rfl

theorem reduceOption_days :
    (((List.range (rowCount year month)).map fun (week : Nat) =>
      weekRow year month (startDate year month + 7 * week)).flatMap WeekRow.days).reduceOption =
      (List.range (daysInMonth year month).toNat).map fun (before : Nat) => (before : Int) + 1 := by
  have monday := startDate_bounds year month
  have length := daysInMonth_bounds year month
  have cells := flatMap_range_seven
    (fun place : Nat => cellOf year month (startDate year month + place)) (rowCount year month)
  have rows : ((List.range (rowCount year month)).map fun (week : Nat) =>
      weekRow year month (startDate year month + 7 * week)).flatMap WeekRow.days =
      (List.range (7 * rowCount year month)).map
        fun place : Nat => cellOf year month (startDate year month + place) := by
    rw [← cells, List.flatMap_map]
    simp only [weekRow]
    push_cast
    simp only [add_assoc]
  rw [rows]
  obtain ⟨before, early⟩ := Int.eq_ofNat_of_zero_le
    (show 0 ≤ firstDate year month - startDate year month by omega)
  obtain ⟨behind, count⟩ : ∃ behind, 7 * rowCount year month =
      before + (daysInMonth year month).toNat + behind := by
    refine ⟨7 * rowCount year month - (before + (daysInMonth year month).toNat), ?_⟩
    unfold rowCount lastDate
    omega
  rw [count]
  apply reduceOption_filled
  · intro place inFront
    rw [cellOf_eq low high, if_neg (by omega)]
  · intro place inside
    rw [cellOf_eq low high, if_pos (by unfold lastDate; omega)]
    congr 1
    omega
  · intro place inRest
    rw [cellOf_eq low high, if_neg (by unfold lastDate; omega)]

omit low high in
theorem exists_date_of_row {week : Nat} (inside : week < rowCount year month) :
    ∃ weekday < 7, firstDate year month ≤ startDate year month + 7 * week + (weekday : Nat) ∧
      startDate year month + 7 * week + (weekday : Nat) ≤ lastDate year month := by
  have monday := startDate_bounds year month
  have length := daysInMonth_bounds year month
  unfold rowCount at inside
  -- the first row holds the first of the month, any other row a Monday of the month
  by_cases start : week = 0
  · refine ⟨(firstDate year month - startDate year month).toNat, by omega, ?_⟩
    unfold lastDate at *
    omega
  · refine ⟨0, by decide, ?_⟩
    omega

theorem exists_day_of_row {week : Nat} (inside : week < rowCount year month) :
    ∃ day, some day ∈ (weekRow year month (startDate year month + 7 * week)).days := by
  obtain ⟨weekday, early, shown⟩ := exists_date_of_row inside
  have cell : cellOf year month (startDate year month + 7 * week + weekday) = some _ :=
    (cellOf_eq low high _).trans (if_pos shown)
  exact ⟨_, List.mem_map.2 ⟨weekday, List.mem_range.2 early, cell⟩⟩

end

section
open Numeral

def cellWord (day? : Option Int) : Text := (day?.map decimal).getD ['.']

def rowWords (row : WeekRow) : List Text :=
  ('W' :: zeroPadded 2 row.week) :: zeroPadded 4 row.year :: row.days.map cellWord

theorem decimal_ne_point (n : Int) : decimal n ≠ ['.'] := by
  intro same
  have member : '.' ∈ decimal n := same ▸ List.mem_singleton_self '.'
  exact not_mem_decimal (by decide) (by decide) member

theorem not_mem_cellWord {c : Char} (other : c.isDigit = false) (noMinus : c ≠ '-')
    (noPoint : c ≠ '.') (day? : Option Int) : c ∉ cellWord day? := by
  cases day? with
  | none => exact fun member => noPoint (List.mem_singleton.1 member)
  | some day => exact not_mem_decimal other noMinus

theorem cellWord_ne_nil (day? : Option Int) : cellWord day? ≠ [] := by
  cases day? with
  | none => exact List.cons_ne_nil _ _
  | some day => exact decimal_ne_nil day

theorem words_cellText (day? : Option Int) : Text.words (cellText day?) = [cellWord day?] := by
  rw [cellText, Text.words_leftpad]
  exact Text.words_eq_single (not_mem_cellWord (by decide) (by decide) (by decide) day?)
    (cellWord_ne_nil day?)

theorem words_labelText (row : WeekRow) :
    Text.words (labelText row) = ['W' :: zeroPadded 2 row.week, zeroPadded 4 row.year] := by
  have week : ' ' ∉ 'W' :: zeroPadded 2 row.week :=
    List.not_mem_cons_of_ne_of_not_mem (by decide)
      (not_mem_zeroPadded (by decide) (.inr (by decide)))
  have year : ' ' ∉ zeroPadded 4 row.year := not_mem_zeroPadded (by decide) (.inr (by decide))
  rw [labelText, Text.words_append, Text.words_eq_single week (List.cons_ne_nil _ _),
    Text.words_eq_single year (zeroPadded_ne_nil 4 _), List.singleton_append]

theorem words_line (row : WeekRow) :
    Text.words (line (labelText row) (row.days.map cellText)) = rowWords row := by
  have blanks : "  ".toList = [' ', ' '] := rfl
  rw [line, blanks, List.append_assoc, List.cons_append, List.cons_append, List.nil_append,
    Text.words_append, Text.words_blank, Text.words_leftpad, words_labelText, Text.words_join,
    List.flatMap_map]
  simp only [words_cellText, ← List.map_eq_flatMap]
  rfl

theorem not_mem_leftpad {c : Char} {text : Text} (width : Nat) (visible : c ≠ ' ')
    (outside : c ∉ text) : c ∉ text.leftpad width ' ' := by
  simp [List.leftpad, outside, visible]

theorem newline_not_mem_line {label : Text} {cells : List Text} (h : '\n' ∉ label)
    (h' : ∀ cell ∈ cells, '\n' ∉ cell) : '\n' ∉ line label cells := by
  have blanks : '\n' ∉ "  ".toList := by decide
  simp only [line, List.mem_append, not_or]
  exact ⟨⟨not_mem_leftpad 10 (by decide) h, blanks⟩, Text.not_mem_join (by decide) h'⟩

/-- The words of the rows in the text of a month, which stand below two lines of headers. -/
def shownRows (text : Text) : List (List Text) :=
  ((text.splitOn '\n').drop 2).map Text.words

theorem shownRows_text (view : MonthView) : shownRows view.text = view.rows.map rowWords := by
  have newline : ∀ {width : Nat} {n : Int}, '\n' ∉ zeroPadded width n :=
    not_mem_zeroPadded (by decide) (.inr (by decide))
  have row : ∀ row : WeekRow, '\n' ∉ line (labelText row) (row.days.map cellText) := by
    intro row
    apply newline_not_mem_line
    · simp [labelText, newline]
    · intro cell member
      obtain ⟨day?, -, rfl⟩ := List.mem_map.1 member
      exact not_mem_leftpad 3 (by decide)
        (not_mem_cellWord (by decide) (by decide) (by decide) day?)
  rw [shownRows, text, Text.join, List.splitOn_intercalate]
  · simp [words_line]
  · simp only [List.forall_mem_cons, List.forall_mem_map]
    refine ⟨?_, by decide, fun shown _ => row shown⟩
    simp [newline]
  · exact List.cons_ne_nil _ _

def cells (row : List Text) : List Text := row.drop 2

theorem filter_cellWord (days : List (Option Int)) :
    (days.map cellWord).filter (· ≠ ['.']) = days.reduceOption.map decimal := by
  induction days with
  | nil => rfl
  | cons day? days ih =>
    cases day? with
    | none => simpa [cellWord] using ih
    | some day => simpa [cellWord, decimal_ne_point] using ih

/-- A row shows the week that begins with a Monday. Its label has the ISO week and year of every
day from that Monday to the Sunday, and each day stands in its weekday's column if it lies in the
month. -/
structure ShowsWeek (year month monday week weekYear : Int) (row : List Text) : Prop where
  label : row.take 2 = ['W' :: zeroPadded 2 week, zeroPadded 4 weekYear]
  weekday : ∀ column : Nat, column < 7 →
    Field.extractDate .isoDayOfWeek (monday + column) = .ok (column + 1)
  inWeek : ∀ column : Nat, column < 7 → Field.extractDate .week (monday + column) = .ok week
  inYear : ∀ column : Nat, column < 7 → Field.extractDate .isoYear (monday + column) = .ok weekYear
  cell : ∀ column : Nat, column < 7 →
    (cells row)[column]? = some (cellWord (cellOf year month (monday + column)))

theorem cells_rowWords (row : WeekRow) : cells (rowWords row) = row.days.map cellWord := rfl

theorem length_cells_weekRow (year month monday : Int) :
    (cells (rowWords (weekRow year month monday))).length = 7 := by
  simp [cells_rowWords, weekRow]

theorem showsWeek_weekRow {monday : Int} (year month : Int)
    (h : IsoWeek.daysSinceMonday (monday + epochJulian) = 0) :
    ShowsWeek year month monday (IsoWeek.week (monday + epochJulian))
      (IsoWeek.year (monday + epochJulian)) (rowWords (weekRow year month monday)) := by
  have sameWeek : ∀ column : Nat, column < 7 →
      IsoWeek.daysSinceMonday (monday + column + epochJulian) = column ∧
        IsoWeek.week (monday + column + epochJulian) = IsoWeek.week (monday + epochJulian) ∧
        IsoWeek.year (monday + column + epochJulian) = IsoWeek.year (monday + epochJulian) := by
    intro column inside
    have thursday := IsoWeek.thursday_of_monday h (Int.natCast_nonneg column) (by omega)
    rw [add_right_comm]
    exact ⟨thursday.1, IsoWeek.week_year_of_thursday thursday.2⟩
  constructor
  case label => rfl
  case weekday =>
    intro column inside
    exact congrArg (fun since => Except.ok (since + 1)) (sameWeek column inside).1
  case inWeek => exact fun column inside => congrArg Except.ok (sameWeek column inside).2.1
  case inYear => exact fun column inside => congrArg Except.ok (sameWeek column inside).2.2
  case cell =>
    intro column inside
    simp [cells_rowWords, weekRow, inside]

theorem daysSinceMonday_startDate (year month : Int) (week : Nat) :
    IsoWeek.daysSinceMonday (startDate year month + 7 * week + epochJulian) = 0 := by
  unfold startDate IsoWeek.daysSinceMonday
  omega

theorem isoDayOfWeek_of_cell {year month monday day : Int} {column : Nat} (low : 1 ≤ month)
    (high : month ≤ 12) (h : IsoWeek.daysSinceMonday (monday + epochJulian) = 0)
    (shown : (cells (rowWords (weekRow year month monday)))[column]? = some (decimal day)) :
    Field.extractJulian .isoDayOfWeek (CalendarDate.toJulian ⟨year, month, day⟩) =
      .ok (column + 1) := by
  have inside : column < 7 := by
    rw [← length_cells_weekRow year month monday]
    exact (List.getElem?_eq_some_iff.1 shown).1
  have shows := showsWeek_weekRow year month h
  rw [shows.cell column inside, Option.some.injEq, cellOf_eq low high] at shown
  split at shown
  · have same := decimal_injective shown
    have count := MonthIndex.toUnix_eq ⟨year, month, day⟩
    have first := firstDate_eq_firstDay year month
    have julian : CalendarDate.toJulian ⟨year, month, day⟩ = monday + column + epochJulian := by
      simp only [MonthIndex.ofDate, CalendarDate.toUnix] at count
      omega
    rw [julian]
    exact shows.weekday column inside
  · exact absurd shown.symm (decimal_ne_point day)

end

section
variable {year month : Int} (low : 1 ≤ month) (high : month ≤ 12)
include low high

theorem digitCount_weekRow_year_le (short : Numeral.digitCount year ≤ Numeral.maxDigits)
    {week : Nat} (inside : week < rowCount year month) :
    Numeral.digitCount (weekRow year month (startDate year month + 7 * week)).year ≤
      Numeral.maxDigits := by
  obtain ⟨weekday, early, shown⟩ := exists_date_of_row inside
  obtain ⟨sameYear, -⟩ := (inMonth_iff low high _).1 shown
  have thursday := IsoWeek.thursday_of_monday (daysSinceMonday_startDate year month week)
    (Int.natCast_nonneg weekday) (by omega)
  have weekYear := (IsoWeek.week_year_of_thursday thursday.2).2
  rw [add_right_comm] at weekYear
  rw [weekRow, ← weekYear]
  refine IsoWeek.digitCount_year_le ?_
  rw [← CalendarDate.ofUnix, sameYear]
  exact short

theorem layOut_eq (short : Numeral.digitCount year ≤ Numeral.maxDigits) :
    layOut year month = .ok (text ⟨year, month, (List.range (rowCount year month)).map
      fun (week : Nat) => weekRow year month (startDate year month + 7 * week)⟩) := by
  have narrow : Numeral.digitCount month ≤ Numeral.maxDigits :=
    (@Numeral.digitCount_le month 2 (by omega) (by decide)).trans (by decide)
  have labels : ((List.range (rowCount year month)).map fun (week : Nat) =>
      weekRow year month (startDate year month + 7 * week)).all
        (fun row => Numeral.digitCount row.year ≤ Numeral.maxDigits) = true := by
    simp only [List.all_map, List.all_eq_true, List.mem_range, Function.comp_apply,
      decide_eq_true_eq]
    exact fun week inside => digitCount_weekRow_year_le low high short inside
  rw [layOut, if_pos ⟨short, narrow⟩, ofMonth?_eq low high]
  exact if_pos labels

end

theorem layOut_of_digitLimit {year : Int} (long : Numeral.maxDigits < Numeral.digitCount year)
    (month : Int) : layOut year month = .error .digitLimit := by
  rw [layOut, if_neg fun short => absurd short.1 (not_le.2 long)]

/-- A month is laid out if its year has at most `maxDigits` digits, and refused otherwise. The text
has the rows below two lines. Each has seven cells, not all of them points, and the label of the
week whose days they are. Read row by row, the cells that are no points number the days of the month
from the first to the last, each in the column of its weekday. -/
theorem shownRows_lay_out_month {year month : Int} (low : 1 ≤ month) (high : month ≤ 12) :
    (Numeral.digitCount year ≤ Numeral.maxDigits → ∃ text, layOut year month = .ok text ∧
      (∀ row ∈ shownRows text, (cells row).length = 7 ∧ ∃ cell ∈ cells row, cell ≠ ['.']) ∧
      ((shownRows text).flatMap cells).filter (· ≠ ['.']) =
        (List.range (daysInMonth year month).toNat).map
          (fun (before : Nat) => Numeral.decimal (before + 1)) ∧
      (∀ row ∈ shownRows text, ∀ (day : Int) (column : Nat),
        (cells row)[column]? = some (Numeral.decimal day) →
          Field.extractJulian .isoDayOfWeek (CalendarDate.toJulian ⟨year, month, day⟩) =
            .ok (column + 1)) ∧
      ∀ row ∈ shownRows text, ∃ monday week weekYear,
        ShowsWeek year month monday week weekYear row) ∧
    (Numeral.maxDigits < Numeral.digitCount year →
      layOut year month = .error .digitLimit) := by
  refine ⟨fun short => ⟨_, layOut_eq low high short, ?_⟩, fun long =>
    layOut_of_digitLimit long month⟩
  rw [shownRows_text]
  simp only [List.forall_mem_map, List.mem_range]
  refine ⟨fun week inside => ⟨?_, ?_⟩, ?_, fun week inside day column shown => ?_,
    fun week inside => ?_⟩
  · exact length_cells_weekRow _ _ _
  · obtain ⟨day, member⟩ := exists_day_of_row low high inside
    exact ⟨_, List.mem_map.2 ⟨some day, member, rfl⟩, decimal_ne_point day⟩
  · have cells : ∀ rows : List WeekRow, (rows.map rowWords).flatMap cells =
        (rows.flatMap WeekRow.days).map cellWord := by
      intro rows
      rw [List.flatMap_map, List.map_flatMap]
      simp only [cells_rowWords]
    rw [cells, filter_cellWord, reduceOption_days low high, List.map_map]
    rfl
  · exact isoDayOfWeek_of_cell low high (daysSinceMonday_startDate year month week) shown
  · exact ⟨_, _, _, showsWeek_weekRow year month (daysSinceMonday_startDate year month week)⟩

theorem shownRows_lay_out_month_new_year :
    let row : List Text :=
      ["W53".toList, "2020".toList, ['.'], ['.'], ['.'], ['.'], ['1'], ['2'], ['3']]
    (1 : Int) ≤ 1 ∧ (1 : Int) ≤ 12 ∧ Numeral.digitCount 2021 ≤ Numeral.maxDigits ∧
      (∃ text, layOut 2021 1 = .ok text ∧ row ∈ shownRows text) ∧
      Field.extractJulian .isoDayOfWeek (CalendarDate.toJulian ⟨2021, 1, 1⟩) = .ok 5 := by
  intro row
  have short : Numeral.digitCount 2021 ≤ Numeral.maxDigits := by decide
  obtain ⟨text, made, -, -, column, -⟩ :=
    (@shownRows_lay_out_month 2021 1 (by decide) (by decide)).1 short
  have member : row ∈ shownRows text := by
    have shown : (layOut 2021 1).map (fun text => decide (row ∈ shownRows text)) = .ok true := by
      decide +kernel
    rw [made] at shown
    exact of_decide_eq_true (Except.ok.inj shown)
  exact ⟨by decide, by decide, short, ⟨text, made, member⟩, column row member 1 4 rfl⟩

/-- A year of 4301 digits has no months that are laid out. -/
theorem not_all_months_laid_out :
    layOut (10 ^ 4300) 1 = .error .digitLimit ∧
      ¬∀ year month : Int, 1 ≤ month → month ≤ 12 → ∃ text, layOut year month = .ok text := by
  have long : Numeral.maxDigits < Numeral.digitCount (10 ^ 4300) := by
    rw [← not_le, Numeral.digitCount_le_maxDigits_iff, not_lt]
    exact le_abs_self _
  have refused := layOut_of_digitLimit long 1
  refine ⟨refused, fun all => ?_⟩
  obtain ⟨text, made⟩ := all (10 ^ 4300) 1 (by decide) (by decide)
  cases refused.symm.trans made

end Almanac.MonthView
