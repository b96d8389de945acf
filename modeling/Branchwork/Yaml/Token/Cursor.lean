import Branchwork.Yaml.Character
import Branchwork.Yaml.Problem

/-!
# Cursors

A cursor is a place in a text: the characters that are left, with the count of characters before
them, the line and the column. Every reader of a part of a text is a step on a cursor that may fail
(`Scan`).
-/

namespace Branchwork.Yaml

/-- A place in a text. -/
structure Cursor where
  rest : List Char
  index : Nat
  line : Nat
  column : Nat

/-- A reader that moves a cursor. -/
abbrev Scan := StateT Cursor (Except Problem)

namespace Cursor

/-- The beginning of a text. -/
def start (text : List Char) : Cursor := ⟨text, 0, 0, 0⟩

/-- The character `k` places ahead. -/
def peek (cur : Cursor) (k : Nat) : Char := (cur.rest[k]?).getD textEnd

/-- The place behind the next character. A carriage return in front of a line feed ends no line,
and a byte order mark takes no column. -/
def next (cur : Cursor) : Cursor :=
  match cur.rest with
  | [] => cur
  | c :: rest =>
    if c = '\n' || c = '\x85' || c = '\u2028' || c = '\u2029' ||
        (c = '\r' && rest.head? ≠ some '\n') then
      ⟨rest, cur.index + 1, cur.line + 1, 0⟩
    else ⟨rest, cur.index + 1, cur.line, if c = '\ufeff' then cur.column else cur.column + 1⟩

/-- The place behind the next `n` characters. -/
def skip : Nat → Cursor → Cursor
  | 0, cur => cur
  | n + 1, cur => skip n cur.next

end Cursor

namespace Scan

/-- The character `k` places ahead. -/
def peekAt (k : Nat) : Scan Char := return (← get).peek k

/-- The next character. -/
def peek : Scan Char := peekAt 0

/-- The next `n` characters. -/
def ahead (n : Nat) : Scan (List Char) := return (← get).rest.take n

/-- Moves behind the next `n` characters. -/
def skip (n : Nat) : Scan Unit := modify (Cursor.skip n)

/-- Refuses the text because of a part of it. -/
def fail {α : Type} (part : Part) : Scan α := throw (.malformed part)

/-- Takes the next `n` characters. -/
def take (n : Nat) : Scan (List Char) := do
  let taken ← ahead n
  skip n
  return taken

/-- Takes the characters of a class. -/
def takeWhile (p : Char → Bool) : Scan (List Char) := do
  take ((← get).rest.takeWhile p).length

/-- Moves behind the characters of a class. -/
def skipWhile (p : Char → Bool) : Scan Unit := do
  skip ((← get).rest.takeWhile p).length

/-- Takes one line end, which reads as a line feed unless it is a separator of lines or of
paragraphs. -/
def takeBreak : Scan (List Char) := do
  let c ← peek
  if c = '\r' || c = '\n' || c = '\x85' then
    skip (if (← ahead 2) = ['\r', '\n'] then 2 else 1)
    return ['\n']
  else if isBreak c then take 1
  else return []

/-- Moves behind a comment, up to the end of the line. -/
def skipComment : Scan Unit := do
  if (← peek) = '#' then skipWhile fun c => !isLineEnd c

/-- Moves behind what may follow on a line that says nothing more: spaces and a comment. -/
def skipLineRest : Scan Unit := do
  skipWhile (· = ' ')
  skipComment
  unless isLineEnd (← peek) do fail .token
  let _ ← takeBreak

/-- Whether a line starts that separates documents. -/
def atSeparator : Scan Bool := do
  let start ← ahead 3
  return (start = ['-', '-', '-'] || start = ['.', '.', '.']) && isBlankOrEnd (← peekAt 3)

/-- The count of characters that are left. -/
def left : Scan Nat := return (← get).rest.length

end Scan

end Branchwork.Yaml
