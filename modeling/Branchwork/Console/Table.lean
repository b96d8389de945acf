import Branchwork.Console.Wrap

/-!
# Tables

A table has a title in the middle above it, headings, and rows of cells. A column is as wide as its
widest cell asks for, with a space on both sides. A cell may have several lines.
-/

namespace Branchwork.Console

/-- A table. -/
structure Table where
  title : String
  headings : List String
  rows : List (List String)

/-- The characters that a line of a table is drawn with: its left end, what stands between two
columns, its right end, and what fills it. -/
structure Rule where
  left : String
  between : String
  right : String
  fill : Char

/-- Adds the spaces behind a text that it lacks to a width. -/
def addSpaces (width : Nat) (text : String) : String :=
  text ++ String.ofList (List.replicate (width - Text.width text) ' ')

/-- A text with spaces behind it up to a width. A joiner at the end of the text hides the first
space, so the width is looked at once more. -/
def padTo (width : Nat) (text : String) : String := addSpaces width (addSpaces width text)

/-- The greatest number of a list, or zero. -/
def greatest (numbers : List Nat) : Nat := numbers.foldl max 0

/-- Joins the columns of a line. -/
def Rule.join (rule : Rule) (columns : List String) : String :=
  rule.left ++ rule.between.intercalate columns ++ rule.right

/-- A line without cells. -/
def Rule.line (rule : Rule) (widths : List Nat) : String :=
  rule.join (widths.map fun w => String.ofList (List.replicate (w + 2) rule.fill))

/-- The lines of a row of cells. -/
def Rule.row (rule : Rule) (widths : List Nat) (cells : List (List String)) : List String :=
  (List.range (greatest (cells.map (·.length)))).map fun i =>
    rule.join ((widths.zip cells).map fun (w, lines) =>
      " " ++ padTo w ((lines[i]?).getD "") ++ " ")

namespace Table

/-- The line above the headings. -/
def topRule : Rule := ⟨"┏", "┳", "┓", '━'⟩

/-- The line of the headings. -/
def headRule : Rule := ⟨"┃", "┃", "┃", ' '⟩

/-- The line below the headings. -/
def middleRule : Rule := ⟨"┡", "╇", "┩", '━'⟩

/-- The line of a row. -/
def rowRule : Rule := ⟨"│", "│", "│", ' '⟩

/-- The line below the rows. -/
def bottomRule : Rule := ⟨"└", "┴", "┘", '─'⟩

/-- The widths of columns, each wide enough for what its cells ask for in all rows. -/
def widths : List (List String) → List Nat
  | [] => []
  | [row] => row.map measured
  | row :: rest => (row.zip (widths rest)).map fun (cell, w) => max w (measured cell)

/-- The lines of a row of texts. -/
def rowLines (rule : Rule) (widths : List Nat) (cells : List String) : List String :=
  rule.row widths ((widths.zip cells).map fun (w, cell) => wrapped w cell)

/-- A title in the middle of a width. -/
def centred (width : Nat) (title : String) : String :=
  String.ofList (List.replicate ((width - Text.width title) / 2) ' ') ++ title

/-- The lines of a table. -/
def lines (t : Table) : List String :=
  let ws := widths (t.headings :: t.rows)
  let top := topRule.line ws
  [centred (Text.width top) t.title, top] ++ rowLines headRule ws t.headings ++
    [middleRule.line ws] ++ t.rows.flatMap (rowLines rowRule ws) ++ [bottomRule.line ws]

end Table

end Branchwork.Console
