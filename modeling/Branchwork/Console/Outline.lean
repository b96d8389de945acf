import Branchwork.Console.Screen

/-!
# Outlines

An outline is a tree of labels, shown with guides that lead from each label to those below it.
-/

namespace Branchwork.Console

/-- A label with the outlines below it. -/
inductive Outline where
  | node (label : String) (below : List Outline)

/-- The guides in front of an outline: of its first line, and of all further lines. -/
def guides (isLast : Bool) : String × String :=
  if isLast then ("└── ", "    ") else ("├── ", "│   ")

/-- Puts guides in front of the lines of an outline. -/
def guided (isLast : Bool) : List String → List String
  | [] => []
  | first :: more =>
    let (head, further) := guides isLast
    (head ++ first) :: more.map (further ++ ·)

mutual

/-- The lines of an outline. -/
def Outline.lines : Outline → List String
  | .node label below => shownLines label ++ linesBelow below

/-- The lines of outlines below a label. -/
def linesBelow : List Outline → List String
  | [] => []
  | outline :: rest => guided rest.isEmpty outline.lines ++ linesBelow rest

end

end Branchwork.Console
