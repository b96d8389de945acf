import Branchwork.Text.Width

/-!
# What a console shows

Text on its way to the console: controls that would move the cursor are dropped, and tabs become
spaces up to the next column that is a multiple of eight.
-/

namespace Branchwork.Console

/-- The controls that are dropped: bell, backspace, vertical tab, form feed, carriage return. -/
def isDropped (c : Char) : Bool :=
  c = '\x07' || c = '\x08' || c = '\x0b' || c = '\x0c' || c = '\r'

/-- A text without the controls that are dropped. -/
def withoutControls (text : String) : List Char := text.toList.filter (!isDropped ·)

/-- The distance between two tab stops. -/
def tabSize : Nat := 8

/-- Replaces the tabs of a line. The text behind the last tab starts in a column, and `field` holds
what is read of it, last character first. -/
def expandTabsFrom (column : Nat) (field : List Char) : List Char → List Char
  | [] => field.reverse
  | c :: rest =>
    if c = '\t' then
      let text := (' ' :: field).reverse
      let stop := column + Text.columns text
      let spaces := (tabSize - stop % tabSize) % tabSize
      text ++ List.replicate spaces ' ' ++ expandTabsFrom (stop + spaces) [] rest
    else expandTabsFrom column (c :: field) rest

/-- A line with spaces in the place of its tabs, at least one for each. -/
def expandTabs (line : List Char) : List Char := expandTabsFrom 0 [] line

/-- The lines of a text. -/
def splitLines : List Char → List (List Char)
  | [] => [[]]
  | c :: rest =>
    if c = '\n' then [] :: splitLines rest
    else
      match splitLines rest with
      | first :: more => (c :: first) :: more
      | [] => [[c]]

/-- The lines that the console shows of a text, as characters. -/
def visibleLines (text : String) : List (List Char) :=
  (splitLines (withoutControls text)).map expandTabs

/-- The lines that the console shows of a text. -/
def shownLines (text : String) : List String := (visibleLines text).map String.ofList

/-- A text as the console shows it, with a line break behind it. -/
def shown (text : String) : String := "\n".intercalate (shownLines text) ++ "\n"

end Branchwork.Console
