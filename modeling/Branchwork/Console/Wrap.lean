import Branchwork.Console.Screen
import Branchwork.Text.Blank

/-!
# Lines of a width

A text is set in lines of a given width. `measured` is the width that a text asks for. It counts no
column for a tab, so a text with tabs may need more than it asks for: `wrapped` then breaks its
lines between words, and cuts what is still too long, with an ellipsis at the cut.
-/

namespace Branchwork.Console

/-- A character that ends a line when a text is measured. -/
def isLineEnd (c : Char) : Bool :=
  c = '\n' || c = '\x1c' || c = '\x1d' || c = '\x1e' || c = '\x85' || c = '\u2028' || c = '\u2029'

/-- The columns of the lines of a text; `line` is what is read of the current one, last character
first. -/
def lineWidths (line : List Char) : List Char → List Nat
  | [] => [Text.columns line.reverse]
  | c :: rest =>
    if isLineEnd c then Text.columns line.reverse :: lineWidths [] rest
    else lineWidths (c :: line) rest

/-- The columns of the widest line of a text. -/
def measured (text : String) : Nat := (lineWidths [] (withoutControls text)).foldl max 0

/-- The words of a line, each with the blanks behind it. The first also has the blanks in front. -/
def wordsWithBlanks (line : List Char) : List (List Char) :=
  match line.splitBy fun a b => !Text.isBlank a || Text.isBlank b with
  | first :: second :: rest =>
    if first.head?.any Text.isBlank then (first ++ second) :: rest else first :: second :: rest
  | words => words

/-- Puts words into lines. The current line holds some text of some columns, and a word goes on it
if it fits, blanks behind it aside. -/
def fill (width : Nat) (line : List Char) (used : Nat) : List (List Char) → List (List Char)
  | [] => [line]
  | word :: rest =>
    let wide := Text.columns word
    if line.isEmpty || used + Text.columns (Text.trimRight word) ≤ width then
      fill width (line ++ word) (used + wide) rest
    else line :: fill width word wide rest

/-- A line without the blanks at its end that are too many. -/
def dropExcess (width : Nat) (line : List Char) : List Char :=
  let blanks := line.length - (Text.trimRight line).length
  line.take (line.length - min blanks (line.length - width))

/-- A line that is too wide ends in an ellipsis. -/
def ellipsed (width : Nat) (line : List Char) : List Char :=
  if Text.columns line ≤ width then line else Text.cut (width - 1) line ++ ['…']

/-- The lines that show a text in a width. -/
def wrapped (width : Nat) (text : String) : List String :=
  (visibleLines text).flatMap fun line =>
    (fill width [] 0 (wordsWithBlanks line)).map fun line =>
      String.ofList (ellipsed width (dropExcess width line))

end Branchwork.Console
