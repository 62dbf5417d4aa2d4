import BuildPlan.Text
import BuildPlan.Text.Width

/-! # Tables

A table is drawn with lines around it and below its header. Its cells are set flush left, one space
away from the lines, and a cell with line ends takes several lines.
-/
namespace BuildPlan

structure Table where
  header : List String
  rows : List (List String)

namespace Table

def cellLines (cell : String) : List String := Text.split '\n' cell

def cellWidth (cell : String) : Nat := ((cellLines cell).map Text.width).foldl max 0

variable (t : Table)

def widths : List Nat :=
  t.rows.foldl (fun ws row => ws.zipWith max (row.map cellWidth)) (t.header.map cellWidth)

/-- A line between rows, with its left end, its crossings and its right end. -/
def rule (widths : List Nat) (left line cross right : String) : String :=
  left ++ cross.intercalate (widths.map fun w => String.join (List.replicate (w + 2) line)) ++ right

def lineText (widths : List Nat) (cells : List String) : String :=
  let fields := widths.zipWith (fun w cell => " " ++ Text.fill w cell ++ " ") cells
  "│" ++ "┆".intercalate fields ++ "│"

/-- The lines of a row, as many as its highest cell has. -/
def rowLines (widths : List Nat) (row : List String) : List String :=
  let cells := row.map cellLines
  let height := (cells.map List.length).foldl max 0
  (List.range height).map fun i => lineText widths (cells.map fun lines => (lines[i]?).getD "")

def lines : List String :=
  let ws := t.widths
  [rule ws "┌" "─" "┬" "┐"] ++ rowLines ws t.header ++ [rule ws "╞" "═" "╪" "╡"] ++
    t.rows.flatMap (rowLines ws) ++ [rule ws "└" "─" "┴" "┘"]

def text : String := "\n".intercalate t.lines

end Table

end BuildPlan
