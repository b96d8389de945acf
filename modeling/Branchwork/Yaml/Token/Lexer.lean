import Branchwork.Yaml.Token.Property
import Branchwork.Yaml.Token.Scalar

/-!
# Cutting a text into tokens

The lexer keeps the indentation of the open block collections and, for each level of flow
collections, the place where a key may have begun. A colon makes a key of what was read since that
place: the tokens for the key, and for the block mapping that it opens, are put in there
afterwards. A key has to fit on one line and within 1024 characters.

A token is settled once no key can begin at it or before it any more. If a text cannot be cut to
its end, only the settled tokens are given.
-/

namespace Branchwork.Yaml

/-- A place where a key may have begun: the count of tokens before it and its place in the text. A
required key has to become one, since it stands where a block collection goes on. -/
structure KeyStart where
  before : Nat
  required : Bool
  index : Nat
  line : Nat
  column : Nat

/-- The state of the lexer. `read` holds the tokens, last first; `keyStarts` belongs to the flow
levels from the innermost on. -/
structure Lexer where
  cursor : Cursor
  read : List Token
  indent : Int
  indents : List Int
  keyStarts : List (Option KeyStart)
  keyAllowed : Bool

/-- The greatest distance from the beginning of a key to its colon. -/
def maxKeyLength : Nat := 1024

/-- Whether a beginning of a key lies too far back to become one. -/
def KeyStart.isStale (k : KeyStart) (cursor : Cursor) : Bool :=
  k.line ≠ cursor.line || maxKeyLength < cursor.index - k.index

/-- A step of the lexer. -/
abbrev Lex := StateT Lexer (Except Problem)

namespace Lex

/-- Runs a reader at the cursor. -/
def scan {α : Type} (reader : Scan α) : Lex α := do
  let s ← get
  match reader.run s.cursor with
  | .error problem => throw problem
  | .ok (found, cursor) =>
    set { s with cursor }
    return found

/-- Refuses the text. -/
def fail {α : Type} (part : Part) : Lex α := throw (.malformed part)

/-- Whether the cursor is inside a flow collection. -/
def inFlow : Lex Bool := return (← get).keyStarts.length > 1

/-- Adds a token. -/
def emit (t : Token) : Lex Unit := modify fun s => { s with read := t :: s.read }

/-- Puts a token behind the first `before` tokens. -/
def insertAt (before : Nat) (t : Token) : Lex Unit :=
  modify fun s => { s with read := s.read.insertIdx (s.read.length - before) t }

/-- Says whether a key may begin at the next token. -/
def allowKey (allowed : Bool) : Lex Unit := modify fun s => { s with keyAllowed := allowed }

/-- Drops the beginnings of keys that lie too far back. -/
def dropStaleKeys : Lex Unit := do
  let s ← get
  let isStale (k : KeyStart) := k.isStale s.cursor
  if s.keyStarts.any (Option.any fun k => isStale k && k.required) then
    fail .layout
  set { s with keyStarts := s.keyStarts.map (Option.filter (!isStale ·)) }

/-- Drops the beginning of a key on the innermost level. -/
def dropKey : Lex Unit := do
  let s ← get
  match s.keyStarts with
  | some k :: outer =>
    if k.required then fail .layout
    set { s with keyStarts := none :: outer }
  | _ => return

/-- Notes that a key may begin at the cursor. -/
def noteKey : Lex Unit := do
  let s ← get
  if s.keyAllowed then
    dropKey
    let required := s.keyStarts.length ≤ 1 && s.indent = (s.cursor.column : Int)
    let start : KeyStart :=
      ⟨s.read.length, required, s.cursor.index, s.cursor.line, s.cursor.column⟩
    modify fun s => { s with keyStarts := some start :: s.keyStarts.drop 1 }

/-- Closes the block collections that are indented further than `column`. -/
def closeBlocks (column : Int) : List Int → Lex Unit
  | [] => return
  | outer :: more => do
    if column < (← get).indent then
      modify fun s => { s with indent := outer, indents := more, read := .blockEnd :: s.read }
      closeBlocks column more

/-- Closes block collections, if the cursor is outside of flow collections. -/
def unwind (column : Int) : Lex Unit := do
  unless ← inFlow do closeBlocks column (← get).indents

/-- Opens a block collection at a column, if it is indented further than the one around it. -/
def openBlock (column : Nat) : Lex Bool := do
  let s ← get
  if s.indent < column then
    set { s with indent := column, indents := s.indent :: s.indents }
    return true
  else return false

/-- Adds a token of `length` characters. -/
def mark (length : Nat) (t : Token) : Lex Unit := do
  scan (Scan.skip length)
  emit t

/-- Closes everything in front of a directive or a separator of documents. -/
def closeDocument : Lex Unit := do
  unwind (-1)
  dropKey
  allowKey false

/-- Reads the bracket that opens a flow collection. -/
def flowStart (t : Token) : Lex Unit := do
  noteKey
  modify fun s => { s with keyStarts := none :: s.keyStarts }
  allowKey true
  mark 1 t

/-- Reads the bracket that closes a flow collection. -/
def flowEnd (t : Token) : Lex Unit := do
  unless ← inFlow do fail .layout
  dropKey
  modify fun s => { s with keyStarts := s.keyStarts.drop 1 }
  allowKey false
  mark 1 t

/-- Reads the comma between the members of a flow collection. -/
def flowEntry : Lex Unit := do
  allowKey true
  dropKey
  mark 1 .flowEntry

/-- Opens a block collection at the cursor, where one may begin only if a key may. -/
def openAtCursor (t : Token) : Lex Unit := do
  unless ← inFlow do
    unless (← get).keyAllowed do fail .layout
    if ← openBlock (← get).cursor.column then emit t

/-- Reads the mark of a member of a block sequence. -/
def blockEntry : Lex Unit := do
  openAtCursor .blockSequenceStart
  allowKey true
  dropKey
  mark 1 .blockEntry

/-- Reads the mark of a key. -/
def keyMark : Lex Unit := do
  openAtCursor .blockMappingStart
  allowKey !(← inFlow)
  dropKey
  mark 1 .key

/-- Reads the colon in front of a value. -/
def valueMark : Lex Unit := do
  match (← get).keyStarts with
  | some k :: outer =>
    -- what was read since the beginning of the key turns out to be a key
    modify fun s => { s with keyStarts := none :: outer }
    insertAt k.before .key
    unless ← inFlow do
      if ← openBlock k.column then insertAt k.before .blockMappingStart
    allowKey false
  | _ =>
    -- a value whose key is empty or stands behind a mark of its own
    openAtCursor .blockMappingStart
    allowKey !(← inFlow)
    dropKey
  mark 1 .value

/-- Reads a token at which a key may begin. -/
def keyed (reader : Scan Token) : Lex Unit := do
  noteKey
  allowKey false
  emit (← scan reader)

/-- Reads an indented block. -/
def blockScalar (folded : Bool) : Lex Unit := do
  allowKey true
  dropKey
  let indent := (← get).indent
  emit (.scalar (.ofList (← scan (Scan.block folded indent))) false)

/-- Reads a scalar in quotes. -/
def quotedScalar (quote : Char) : Lex Unit :=
  keyed do return .scalar (.ofList (← Scan.quoted quote)) false

/-- Reads a plain scalar. A key may begin behind it if its line has ended. -/
def plainScalar : Lex Unit := do
  noteKey
  let flow ← inFlow
  let indent := (← get).indent
  let (read, lineEnded) ← scan (Scan.plain flow indent)
  allowKey lineEnded
  emit (.scalar (.ofList read) true)

/-- Whether a plain scalar can begin with the character `c` in front of `next`. -/
def startsPlain (flow : Bool) (c next : Char) : Bool :=
  !(isBlankOrEnd c || isIndicator c) ||
    (!isBlankOrEnd next && (c = '-' || (!flow && (c = '?' || c = ':'))))

/-- Moves behind spaces, comments and line ends. A key may begin on a new line. -/
def skipToToken : Nat → Lex Unit
  | 0 => return
  | fuel + 1 => do
    scan do
      Scan.skipWhile (· = ' ')
      Scan.skipComment
    if isBreak (← scan Scan.peek) then
      let _ ← scan Scan.takeBreak
      unless ← inFlow do allowKey true
      skipToToken fuel

/-- Reads the token that begins with `c`. -/
def token (c : Char) : Lex Unit := do
  let next ← scan (Scan.peekAt 1)
  let flow ← inFlow
  let column := (← get).cursor.column
  if c = '%' && column = 0 then
    closeDocument
    emit (← scan Scan.directive)
  else if column = 0 && (← scan Scan.atSeparator) then
    closeDocument
    mark 3 (if c = '-' then .documentStart else .documentEnd)
  else if c = '[' then flowStart .flowSequenceStart
  else if c = '{' then flowStart .flowMappingStart
  else if c = ']' then flowEnd .flowSequenceEnd
  else if c = '}' then flowEnd .flowMappingEnd
  else if c = ',' then flowEntry
  else if c = '-' && isBlankOrEnd next then blockEntry
  else if c = '?' && (flow || isBlankOrEnd next) then keyMark
  else if c = ':' && (flow || isBlankOrEnd next) then valueMark
  else if c = '*' then keyed do return .alias (← Scan.anchorName)
  else if c = '&' then keyed do return .anchor (← Scan.anchorName)
  else if c = '!' then keyed Scan.tag
  else if c = '|' && !flow then blockScalar false
  else if c = '>' && !flow then blockScalar true
  else if c = '\'' || c = '"' then quotedScalar c
  else if startsPlain flow c next then plainScalar
  else fail .token

/-- Reads the next token, with what it closes; false at the end of the text. -/
def next : Lex Bool := do
  skipToToken ((← scan Scan.left) + 1)
  -- a key that ended on a line before can no longer become one
  dropStaleKeys
  unwind (← get).cursor.column
  let c ← scan Scan.peek
  if c = textEnd then
    -- every collection that is still open ends here
    unwind (-1)
    dropKey
    return false
  else
    token c
    return true

end Lex

/-- The count of settled tokens. -/
def Lexer.settled (s : Lexer) : Nat :=
  let starts := s.keyStarts.filterMap fun k => k.filter (!·.isStale s.cursor)
  (starts.map (·.before)).foldl min s.read.length

/-- The tokens up to the end of a text, or up to a part of it that is no token. -/
def Lexer.tokens (s : Lexer) : Nat → List Token
  | 0 => s.read.reverse
  | fuel + 1 =>
    match Lex.next.run s with
    | .error problem => s.read.reverse.take s.settled ++ [.unreadable problem]
    | .ok (true, s) => s.tokens fuel
    | .ok (false, s) => s.read.reverse

/-- The tokens of a text. -/
def tokenize (text : String) : Except Problem (List Token) := do
  let chars := text.toList
  unless chars.all isAllowed do throw (.malformed .character)
  let chars := if chars.head? = some '\ufeff' then chars.drop 1 else chars
  let lexer : Lexer := ⟨.start chars, [], -1, [], [none], true⟩
  return lexer.tokens (chars.length + 1)

end Branchwork.Yaml
