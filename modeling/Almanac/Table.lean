import Almanac.Text

/-!
Lines of a printed report: titles and tables. A table's columns are as wide as their widest cell.
Main statement: a table is refused exactly if one of its rows has more cells than there are columns.
-/

namespace Almanac.Table

def banner (title : Text) : List Text :=
  let rule := List.replicate 90 '='
  [[], rule, ' ' :: ' ' :: title, rule]

/-- A title with a rule two characters longer below it. -/
def heading (title : Text) : List Text :=
  [[], ' ' :: ' ' :: title, ' ' :: ' ' :: List.replicate (title.length + 2) '-']

def filled (columns : Nat) (row : List Text) : List Text := row.rightpad columns []

def widths (headers : List Text) (rows : List (List Text)) : List Nat :=
  rows.foldl (fun widths row => widths.zipWith (fun width cell => max width cell.length)
    (filled headers.length row)) (headers.map List.length)

def line (margin : Text) (widths : List Nat) (cells : List Text) : Text :=
  margin ++ Text.join "  ".toList (widths.zipWith (fun width cell => cell.rightpad width ' ') cells)

def lines? (headers : List Text) (rows : List (List Text)) (indent : Int) : Option (List Text) :=
  if rows.all fun row => row.length ≤ headers.length then
    let margin := List.replicate indent.toNat ' '
    let widths := widths headers rows
    some (line margin widths headers ::
      line margin widths (widths.map fun width => List.replicate width '-') ::
      rows.map fun row => line margin widths (filled headers.length row))
  else none

theorem lines?_eq_none_iff {headers : List Text} {rows : List (List Text)} {indent : Int} :
    lines? headers rows indent = none ↔ ∃ row ∈ rows, headers.length < row.length := by
  simp [lines?]

def printed (lines : List Text) : Text := lines.flatMap fun line => line ++ ['\n']

end Almanac.Table
