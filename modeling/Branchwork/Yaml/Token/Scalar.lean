import Branchwork.Text.Half
import Branchwork.Text.Hex
import Branchwork.Yaml.Token.Cursor

/-!
# Reading scalars

The three ways to write a scalar: plain, in quotes, and as an indented block. Lines of plain and
quoted scalars are folded: a single line end reads as a space, and of several the first is dropped.
A block keeps its lines or folds them, and its last line ends are kept or dropped as its heading
says.

Loops over a text spend one unit of `fuel` for each round; every round but the last takes a
character, so the count of characters left is enough.
-/

namespace Branchwork.Yaml.Scan

/-- How a run of line ends reads: the first one is dropped if it is a line feed, and a space stands
for it if no other follows. -/
def foldBreaks (first more : List Char) : List Char :=
  if first ≠ ['\n'] then first ++ more else if more.isEmpty then [' '] else more

/-! ## Plain scalars -/

/-- The count of characters up to a blank, a colon that ends a key, or a flow indicator. -/
def plainLength (inFlow : Bool) : List Char → Nat
  | [] => 0
  | c :: rest =>
    let next := (rest.head?).getD textEnd
    if isBlankOrEnd c || (c = ':' && (isBlankOrEnd next || (inFlow && isFlowIndicator next))) ||
        (inFlow && (c = '?' || isFlowIndicator c)) then 0
    else plainLength inFlow rest + 1

/-- Takes spaces and line ends behind the first line end, up to the next line with text; none if a
separator of documents comes first. -/
def plainBreaks : Nat → List Char → Scan (Option (List Char))
  | 0, breaks => return some breaks
  | fuel + 1, breaks => do
    let c ← peek
    if c = ' ' then
      skip 1
      plainBreaks fuel breaks
    else if isBreak c then
      let more ← takeBreak
      if ← atSeparator then return none
      plainBreaks fuel (breaks ++ more)
    else return some breaks

/-- Takes what stands between two parts of a plain scalar: how it reads, and whether a line ended;
none at a separator of documents. -/
def plainSpaces : Scan (Option (List Char) × Bool) := do
  let spaces ← takeWhile (· = ' ')
  if isBreak (← peek) then
    let first ← takeBreak
    if ← atSeparator then return (none, true)
    match ← plainBreaks (← left) [] with
    | none => return (none, true)
    | some more => return (some (foldBreaks first more), true)
  else return (some spaces, false)

/-- Takes the parts of a plain scalar. `read` and `spaces` hold what was read so far and what stands
behind it; the answer tells whether a line ended behind the last part. -/
def plainParts (inFlow : Bool) (indent : Int) :
    Nat → List Char → List Char → Bool → Scan (List Char × Bool)
  | 0, read, _, lineEnded => return (read, lineEnded)
  | fuel + 1, read, spaces, lineEnded => do
    let length := plainLength inFlow (← get).rest
    if (← peek) = '#' || length = 0 then return (read, lineEnded)
    let part ← take length
    let read := read ++ spaces ++ part
    let (more, lineEnded) ← plainSpaces
    let more := more.getD []
    if more.isEmpty || (← peek) = '#' || (!inFlow && ((← get).column : Int) < indent) then
      return (read, lineEnded)
    plainParts inFlow indent fuel read more lineEnded

/-- Takes a plain scalar inside a collection with the given indentation. -/
def plain (inFlow : Bool) (indent : Int) : Scan (List Char × Bool) := do
  plainParts inFlow (indent + 1) (← left) [] [] false

/-! ## Scalars in quotes -/

/-- The character that an escape of one letter stands for. -/
def escape? (c : Char) : Option Char :=
  ([('0', '\x00'), ('a', '\x07'), ('b', '\x08'), ('t', '\t'), ('\t', '\t'), ('n', '\n'),
    ('v', '\x0b'), ('f', '\x0c'), ('r', '\r'), ('e', '\x1b'), (' ', ' '), ('"', '"'), ('\\', '\\'),
    ('/', '/'), ('N', '\x85'), ('_', '\xa0'), ('L', '\u2028'), ('P', '\u2029')] :
    List (Char × Char)).lookup c

/-- The count of digits of an escape by a code. -/
def escapeDigits? (c : Char) : Option Nat :=
  if c = 'x' then some 2 else if c = 'u' then some 4 else if c = 'U' then some 8 else none

/-- Takes line ends inside quotes with the blanks around them. -/
def quotedBreaks : Nat → List Char → Scan (List Char)
  | 0, breaks => return breaks
  | fuel + 1, breaks => do
    if ← atSeparator then fail .token
    skipWhile fun c => c = ' ' || c = '\t'
    if isBreak (← peek) then quotedBreaks fuel (breaks ++ (← takeBreak)) else return breaks

/-- Takes an escape behind its backslash. The codes of halves are not joined. -/
def quotedEscape : Scan (List Char) := do
  let c ← peek
  match escape? c, escapeDigits? c with
  | some meant, _ =>
    skip 1
    return [meant]
  | none, some count =>
    skip 1
    let digits ← ahead count
    match if digits.length = count then Text.hexNumber? digits else none with
    | none => fail .token
    | some code =>
      if 0x110000 ≤ code then throw (.charCode code)
      skip count
      return [Text.charOfCode code]
  | none, none =>
    if isBreak c then
      -- an escaped line end stands for nothing, and so do the blanks behind it
      let _ ← takeBreak
      quotedBreaks ((← left) + 1) []
    else fail .token

/-- Takes characters other than blanks inside quotes. -/
def quotedText (double : Bool) : Nat → List Char → Scan (List Char)
  | 0, read => return read
  | fuel + 1, read => do
    let run ← takeWhile fun c =>
      !(c = '\'' || c = '"' || c = '\\' || isBlankOrEnd c)
    let read := read ++ run
    let c ← peek
    if !double && c = '\'' && (← peekAt 1) = '\'' then
      skip 2
      quotedText double fuel (read ++ ['\''])
    else if (double && c = '\'') || (!double && (c = '"' || c = '\\')) then
      skip 1
      quotedText double fuel (read ++ [c])
    else if double && c = '\\' then
      skip 1
      quotedText double fuel (read ++ (← quotedEscape))
    else return read

/-- Takes blanks and line ends inside quotes. -/
def quotedSpaces : Scan (List Char) := do
  let spaces ← takeWhile fun c => c = ' ' || c = '\t'
  let c ← peek
  if c = textEnd then fail .token
  else if isBreak c then
    let first ← takeBreak
    return foldBreaks first (← quotedBreaks ((← left) + 1) [])
  else return spaces

/-- Takes text and blanks by turns up to the closing quote. -/
def quotedParts (quote : Char) : Nat → List Char → Scan (List Char)
  | 0, _ => fail .token
  | fuel + 1, read => do
    if (← peek) = quote then
      skip 1
      return read
    let spaces ← quotedSpaces
    let text ← quotedText (quote = '"') ((← left) + 1) []
    quotedParts quote fuel (read ++ spaces ++ text)

/-- Takes a scalar in quotes. -/
def quoted (quote : Char) : Scan (List Char) := do
  skip 1
  let text ← quotedText (quote = '"') ((← left) + 1) []
  quotedParts quote ((← left) + 1) text

/-! ## Blocks -/

/-- What becomes of the line ends behind a block: all are dropped, one is kept, or all are kept. -/
inductive Chomping where
  | strip
  | clip
  | keep
deriving DecidableEq, Repr

/-- The heading of a block: its chomping and, if it is given, its indentation. -/
structure Heading where
  chomping : Chomping
  increment : Option Nat

/-- Takes a mark of chomping. -/
def chomping? : Scan (Option Chomping) := do
  let c ← peek
  if c = '+' || c = '-' then
    skip 1
    return some (if c = '+' then .keep else .strip)
  else return none

/-- Takes a digit of indentation, which may not be zero. -/
def increment? : Scan (Option Nat) := do
  let c ← peek
  if c = '0' then fail .token
  else if c.isDigit then
    skip 1
    return some (c.toNat - 48)
  else return none

/-- Takes the heading of a block: mark and digit in either order. -/
def heading : Scan Heading := do
  let found ← match ← chomping? with
    | some chomping => pure { chomping, increment := ← increment? : Heading }
    | none =>
      match ← increment? with
      | some n => pure ⟨(← chomping?).getD .clip, some n⟩
      | none => pure ⟨.clip, none⟩
  unless isSpaceOrEnd (← peek) do fail .token
  skipLineRest
  return found

/-- Takes the empty lines in front of a block whose indentation is not given: how they read, and
the greatest indentation seen. -/
def blockIndentation : Nat → List Char → Nat → Scan (List Char × Nat)
  | 0, breaks, widest => return (breaks, widest)
  | fuel + 1, breaks, widest => do
    let c ← peek
    if c = ' ' then
      skip 1
      blockIndentation fuel breaks (max widest (← get).column)
    else if isBreak c then blockIndentation fuel (breaks ++ (← takeBreak)) widest
    else return (breaks, widest)

/-- Moves behind the indentation of a line, but not further than to its column. -/
def skipIndentation (indent : Nat) : Scan Unit := do
  let cur ← get
  skip ((cur.rest.takeWhile (· = ' ')).take (indent - cur.column)).length

/-- Takes the empty lines of a block with the given indentation. -/
def blockBreaks (indent : Nat) : Nat → List Char → Scan (List Char)
  | 0, breaks => return breaks
  | fuel + 1, breaks => do
    skipIndentation indent
    if isBreak (← peek) then blockBreaks indent fuel (breaks ++ (← takeBreak)) else return breaks

/-- Whether a further line of a block follows. -/
def atBlockLine (indent : Nat) : Scan Bool := do
  return (← get).column = indent && (← peek) ≠ textEnd

/-- Takes the lines of a block. The answer holds the text, the end of the last line, and the empty
lines behind it. -/
def blockLines (folded : Bool) (indent : Nat) :
    Nat → List Char → List Char → List Char → Scan (List Char × List Char × List Char)
  | 0, read, lineEnd, breaks => return (read, lineEnd, breaks)
  | fuel + 1, read, lineEnd, breaks => do
    unless ← atBlockLine indent do return (read, lineEnd, breaks)
    let first ← peek
    let line ← takeWhile fun c => !isLineEnd c
    let read := read ++ breaks ++ line
    let lineEnd ← takeBreak
    let breaks ← blockBreaks indent ((← left) + 1) []
    unless ← atBlockLine indent do return (read, lineEnd, breaks)
    let next ← peek
    -- lines that begin with a blank keep the line ends around them
    let isText (c : Char) := c ≠ ' ' && c ≠ '\t'
    let between :=
      if folded && lineEnd = ['\n'] && isText first && isText next then
        if breaks.isEmpty then [' '] else []
      else lineEnd
    blockLines folded indent fuel (read ++ between) lineEnd breaks

/-- Takes a block inside a collection with the given indentation. -/
def block (folded : Bool) (indent : Int) : Scan (List Char) := do
  skip 1
  let head ← heading
  let least := (max (indent + 1) 1).toNat
  let (breaks, indent) ← match head.increment with
    | none => do
      let (breaks, widest) ← blockIndentation (← left) [] 0
      pure (breaks, max least widest)
    | some n => do
      let indent := least + n - 1
      pure (← blockBreaks indent ((← left) + 1) [], indent)
  let (read, lineEnd, breaks) ← blockLines folded indent ((← left) + 1) [] [] breaks
  return match head.chomping with
    | .strip => read
    | .clip => read ++ lineEnd
    | .keep => read ++ lineEnd ++ breaks

end Branchwork.Yaml.Scan
