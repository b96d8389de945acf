import Branchwork.Script.Syntax

/-!
# Words of shell scripts

A reader goes through the text of a script, which carries the number of the line with each
character. It gives one token at a time: a word, a mark, the beginning of a redirection, or the end
of a line or of the text.

The text of a here-document is taken out of the script as soon as its delimiter is read; the rest
of the line is read after it.

Loops spend one unit of `fuel` for each round, and every round takes a character.
-/

namespace Branchwork.Script

/-- A complaint about a script: the line, and what is wrong there. -/
structure Complaint where
  line : Nat
  message : String
deriving DecidableEq, Repr

/-- A token of a script. -/
inductive Token where
  | endOfText
  | newline
  | mark (text : String)
  | redirection (stream : Option Nat) (operator : String)
  | word (parts : Word)
deriving Inhabited

/-- What is left of a script. Each character has its line; `last` is the line behind them all. A
token may have been read ahead. -/
structure Reader where
  rest : List (Char × Nat)
  last : Nat
  ahead : Option Token

/-- A step of a reader. -/
abbrev Read := StateT Reader (Except Complaint)

/-- Gives each character its line. -/
def numbered (line : Nat) : List Char → List (Char × Nat)
  | [] => []
  | c :: rest => (c, line) :: numbered (if c = '\n' then line + 1 else line) rest

/-- The reader at the beginning of a text. -/
def Reader.start (text : List Char) : Reader :=
  ⟨numbered 1 text, 1 + text.count '\n', none⟩

namespace Read

/-- The line of the next character. -/
def line : Read Nat := do
  let s ← get
  return (s.rest.head?.map (·.2)).getD s.last

/-- Refuses the script. -/
def fail {α : Type} (message : String) : Read α := do
  throw ⟨← line, "Syntax error: " ++ message⟩

/-- The character `k` places ahead. -/
def charAt? (k : Nat) : Read (Option Char) := return ((← get).rest[k]?).map (·.1)

/-- The next character. -/
def char? : Read (Option Char) := charAt? 0

/-- Moves behind the next `n` characters. -/
def skip (n : Nat) : Read Unit := modify fun s => { s with rest := s.rest.drop n }

/-- Whether the next characters are those of a text. -/
def sees (text : String) : Read Bool := do
  return ((← get).rest.take text.length).map (·.1) = text.toList

/-- Takes characters of a class. -/
def takeWhile (p : Char → Bool) : Read (List Char) := do
  let taken := ((← get).rest.takeWhile fun (c, _) => p c).map (·.1)
  skip taken.length
  return taken

/-- More than the count of calls that the characters that are left can need: between two of them
fewer than four calls nest. -/
def fuel : Read Nat := return 4 * (← get).rest.length + 16

/-- Whether a character ends a word. -/
def endsWord (c : Char) : Bool := " \t\n;&|<>()".toList.contains c

/-- The parameters that are named by a mark. -/
def isMarkName (c : Char) : Bool := "*@#?$!-".toList.contains c

/-- Takes the name of a parameter in braces; the empty text if there is none. -/
def parameterName : Read String := do
  match ← char? with
  | some c =>
    if startsName c then return String.ofList (← takeWhile isNameChar)
    else if c.isDigit then return String.ofList (← takeWhile Char.isDigit)
    else if isMarkName c then
      skip 1
      return String.ofList [c]
    else return ""
  | none => return ""

/-- Takes a backquoted text up to the closing quote. A backslash protects backquotes, backslashes
and dollar signs, and between double quotes also those. -/
def backquoted (quoted : Bool) : Nat → Read (List (Char × Nat))
  | 0 => fail "EOF in backquote substitution"
  | fuel + 1 => do
    match (← get).rest with
    | [] => fail "EOF in backquote substitution"
    | ('`', _) :: _ =>
      skip 1
      return []
    | ('\\', line) :: (c, other) :: _ =>
      skip 2
      let more ← backquoted quoted fuel
      let isProtected := c = '`' || c = '\\' || c = '$' || (quoted && c = '"')
      return (if isProtected then [(c, other)] else [('\\', line), (c, other)]) ++ more
    | c :: _ =>
      skip 1
      return c :: (← backquoted quoted fuel)

/-- Reads another text with a reader, and goes on behind the place of that text. -/
def within {α : Type} (text : List (Char × Nat)) (last : Nat) (reader : Read α) : Read α := do
  match reader.run ⟨text, last, none⟩ with
  | .error complaint => throw complaint
  | .ok (found, _) => return found

/-- Moves behind the closing brace of a parameter that cannot be read. -/
def skipBraces : Nat → Read Unit
  | 0 => return
  | fuel + 1 => do
    match ← char? with
    | none => fail "Missing '\x7d'"
    | some '}' => skip 1
    | some _ =>
      skip 1
      skipBraces fuel

section

variable (inner : Bool → Read Command)

/-- Takes a command whose output is a part of a word, behind its opening mark. -/
def outputOf (quoted : Bool) (opening : Char) : Read Part := do
  if opening = '`' then
    let text ← backquoted quoted (← fuel)
    return .output (← within text (← line) (inner false)) quoted
  else return .output (← inner true) quoted

mutual

/-- Takes what stands for a value behind a dollar sign, which stands for itself if there is none. -/
def dollar (quoted : Bool) : Nat → Read Word
  | 0 => return []
  | fuel + 1 => do
    match ← char? with
    | some '(' =>
      skip 1
      if (← char?) = some '(' then
        skip 1
        return [.number (← sum 0 fuel) quoted]
      else return [← outputOf inner quoted '(']
    | some '{' =>
      skip 1
      return [← braces quoted fuel]
    | some c =>
      if startsName c then
        let name ← takeWhile isNameChar
        return [.parameter (String.ofList name) .value quoted]
      else if c.isDigit || isMarkName c then
        skip 1
        return [.parameter (String.ofList [c]) .value quoted]
      else return [.char '$' quoted]
    | none => return [.char '$' quoted]

/-- Takes a parameter behind its opening brace. -/
def braces (quoted : Bool) : Nat → Read Part
  | 0 => return .misspelt
  | fuel + 1 => do
    -- a hash in front of a name asks for a length; otherwise it is a name itself
    let start ← get
    if (← char?) = some '#' then
      skip 1
      let name ← parameterName
      if name ≠ "" && (← char?) = some '}' then
        skip 1
        return .parameter name .length quoted
      set start
    let name ← parameterName
    if name = "" then
      skipBraces (← Read.fuel)
      return .misspelt
    let orEmpty := (← char?) = some ':'
    if orEmpty then skip 1
    let operator ← char?
    skip 1
    match operator with
    | some '}' =>
      if orEmpty then return .misspelt
      return .parameter name .value quoted
    | some '-' => return .parameter name (.default orEmpty (← braced quoted fuel)) quoted
    | some '=' => return .parameter name (.assign orEmpty (← braced quoted fuel)) quoted
    | some '?' => return .parameter name (.demand orEmpty (← braced quoted fuel)) quoted
    | some '+' => return .parameter name (.instead orEmpty (← braced quoted fuel)) quoted
    | none => fail "Missing '\x7d'"
    | some c =>
      if (c = '%' || c = '#') && !orEmpty then
        let longest := (← char?) = some c
        if longest then skip 1
        -- quotes protect a pattern even between double quotes
        return .parameter name (.cut (c = '%') longest (← braced false fuel)) quoted
      else
        skipBraces (← Read.fuel)
        return .misspelt

/-- Takes a word up to a closing brace. -/
def braced (quoted : Bool) : Nat → Read Word
  | 0 => return []
  | fuel + 1 => do
    match ← char? with
    | none => fail "Missing '\x7d'"
    | some '}' =>
      skip 1
      return []
    | some c =>
      let part ←
        if !quoted then unquotedPart c fuel
        else if c = '"' then
          skip 1
          quotes fuel
        else quotedPart "$`\"\\\x7d" c fuel
      return part ++ (← braced quoted fuel)

/-- Takes what stands between double quotes, behind the opening one. -/
def quotes : Nat → Read Word
  | 0 => return []
  | fuel + 1 => do
    match ← char? with
    | none => fail "Unterminated quoted string"
    | some '"' =>
      skip 1
      return []
    | some c =>
      let part ← quotedPart "$`\"\\" c fuel
      return part ++ (← quotes fuel)

/-- Takes an arithmetic expression up to its closing parentheses; `depth` counts those that are
open inside of it. -/
def sum (depth : Nat) : Nat → Read Word
  | 0 => return []
  | fuel + 1 => do
    match ← char? with
    | none => fail "Missing '))'"
    | some ')' =>
      skip 1
      if 0 < depth then return .char ')' true :: (← sum (depth - 1) fuel)
      else if (← char?) = some ')' then
        skip 1
        return []
      else return .char ')' true :: (← sum depth fuel)
    | some '(' =>
      skip 1
      return .char '(' true :: (← sum (depth + 1) fuel)
    | some '"' =>
      skip 1
      sum depth fuel
    | some c =>
      let part ← quotedPart "$`\"\\" c fuel
      return part ++ (← sum depth fuel)

/-- Takes the next part between double quotes or in a document. A backslash protects the given
characters and the end of a line. -/
def quotedPart (escaped : String) (c : Char) : Nat → Read Word
  | 0 => return []
  | fuel + 1 => do
    skip 1
    if c = '$' then dollar true fuel
    else if c = '`' then return [← outputOf inner true '`']
    else if c = '\\' then
      match ← char? with
      | some '\n' =>
        skip 1
        return []
      | some d =>
        if escaped.toList.contains d then
          skip 1
          return [.char d true]
        else return [.char '\\' true]
      | none => return [.char '\\' true]
    else return [.char c true]

/-- Takes the next part of a word outside of quotes. -/
def unquotedPart (c : Char) : Nat → Read Word
  | 0 => return []
  | fuel + 1 => do
    skip 1
    if c = '\'' then
      let inside ← takeWhile (· ≠ '\'')
      if (← char?).isNone then fail "Unterminated quoted string"
      skip 1
      return .quotes :: quotedParts inside
    else if c = '"' then return .quotes :: (← quotes fuel)
    else if c = '\\' then
      match ← char? with
      | some '\n' =>
        skip 1
        return []
      | some d =>
        skip 1
        return [.char d true]
      | none => return [.char '\\' true]
    else if c = '$' then dollar false fuel
    else if c = '`' then return [← outputOf inner false '`']
    else return [.char c false]

end

/-- Takes a word. -/
def word : Nat → Read Word
  | 0 => return []
  | fuel + 1 => do
    match ← char? with
    | none => return []
    | some c =>
      if endsWord c then return []
      let part ← unquotedPart inner c fuel
      return part ++ (← word fuel)

/-- Takes the text of a document. -/
def document : Nat → Read Word
  | 0 => return []
  | fuel + 1 => do
    match ← char? with
    | none => return []
    | some c =>
      let part ← quotedPart inner "$`\\" c fuel
      return part ++ (← document fuel)

end

/-! ## Here-documents -/

/-- Takes the delimiter of a here-document: its text, and whether a part of it is quoted. -/
def delimiter : Nat → Read (List Char × Bool)
  | 0 => return ([], false)
  | fuel + 1 => do
    match ← char? with
    | none => return ([], false)
    | some c =>
      if endsWord c then return ([], false)
      skip 1
      if c = '\'' || c = '"' then
        let inside ← takeWhile (· ≠ c)
        skip 1
        return (inside ++ (← delimiter fuel).1, true)
      else if c = '\\' then
        let kept := ((← get).rest.take 1).map (·.1)
        skip 1
        return (kept ++ (← delimiter fuel).1, true)
      else
        let (more, quoted) ← delimiter fuel
        return (c :: more, quoted)

/-- The lines of a document and what follows it. A line that a backslash joins to the one before is
not looked at; `joined` tells whether the first one is. -/
def documentLines (stripped quoted : Bool) (stop : List Char) (joined : Bool) :
    Nat → List (Char × Nat) → List (Char × Nat) × List (Char × Nat)
  | 0, text => (text, [])
  | fuel + 1, text =>
    if text.isEmpty then ([], [])
    else
      let text := if stripped && !joined then text.dropWhile (·.1 = '\t') else text
      let line := text.takeWhile (·.1 ≠ '\n')
      let behind := text.drop line.length
      if !joined && line.map (·.1) = stop then ([], behind.drop 1)
      else
        let slashes := (line.reverse.takeWhile (·.1 = '\\')).length
        let (more, rest) :=
          documentLines stripped quoted stop (!quoted && slashes % 2 = 1) fuel (behind.drop 1)
        (line ++ behind.take 1 ++ more, rest)

/-- The length of the rest of a line, as far as no quote protects its end. -/
def lineLength (quote : Option Char) : List (Char × Nat) → Nat
  | [] => 0
  | (c, _) :: rest =>
    match quote with
    | some q => 1 + lineLength (if c = q then none else quote) rest
    | none =>
      if c = '\n' then 0
      else 1 + lineLength (if c = '\'' || c = '"' then some c else none) rest

/-- Takes a here-document behind its operator, and its text out of the lines behind. -/
def hereDocument (inner : Bool → Read Command) (stripped : Bool) : Read Word := do
  let _ ← takeWhile fun c => c = ' ' || c = '\t'
  let (stop, quoted) ← delimiter (← fuel)
  let s ← get
  let line := s.rest.take (lineLength none s.rest)
  let behind := s.rest.drop line.length
  let (text, rest) := documentLines stripped quoted stop false s.rest.length (behind.drop 1)
  set { s with rest := line ++ behind.take 1 ++ rest }
  if quoted then return quotedParts (text.map (·.1))
  else within text s.last do document inner (← fuel)

/-! ## Tokens -/

/-- Moves behind blanks, comments and line ends that a backslash takes away. -/
def skipBlanks : Nat → Read Unit
  | 0 => return
  | fuel + 1 => do
    let _ ← takeWhile fun c => c = ' ' || c = '\t'
    if ← sees "\\\n" then
      skip 2
      skipBlanks fuel
    else if (← char?) = some '#' then
      let _ ← takeWhile (· ≠ '\n')

/-- The marks of a script; of two that fit, the first one counts. -/
def marks : List String := [";;", ";", "&&", "&", "||", "|", "(", ")"]

/-- The operators of redirections; of two that fit, the first one counts. -/
def operators : List String := ["<<-", "<<", "<&", "<>", "<", ">>", ">&", ">|", ">"]

/-- The first text of a list that stands next. -/
def first? : List String → Read (Option String)
  | [] => return none
  | text :: rest => do
    if ← sees text then
      skip text.length
      return some text
    else first? rest

/-- Reads a token. -/
def token (inner : Bool → Read Command) : Read Token := do
  skipBlanks (← fuel)
  match ← char? with
  | none => return .endOfText
  | some c =>
    if c = '\n' then
      skip 1
      return .newline
    else if let some mark := ← first? marks then return .mark mark
    else
      -- a digit in front of an operator names the stream
      let stream :=
        if c.isDigit && (← charAt? 1).any fun d => d = '<' || d = '>' then some (c.toNat - 48)
        else none
      if stream.isSome then skip 1
      match ← first? operators with
      | some operator => return .redirection stream operator
      | none => return .word (← word inner (← fuel))

/-- The next token, which stays. -/
def peek (inner : Bool → Read Command) : Read Token := do
  match (← get).ahead with
  | some found => return found
  | none =>
    let found ← token inner
    modify fun s => { s with ahead := some found }
    return found

/-- Takes the next token. -/
def take (inner : Bool → Read Command) : Read Token := do
  let found ← peek inner
  modify fun s => { s with ahead := none }
  return found

end Read

end Branchwork.Script
