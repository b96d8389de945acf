import Branchwork.Script.Reader

/-!
# Commands of shell scripts

`Program.ofText` reads a script line by line. A line that is no command ends the script: it is
complained about when the lines before it have been run.

A word is a keyword only where a command may begin and where the command around it asks for one.
The readers spend one unit of `fuel` on each call. Between two characters fewer than eight calls
nest, so eight units for each character are enough.
-/

namespace Branchwork.Script

/-- The text of a word without quotes and parameters. -/
def plainWord? : Word → Option String
  | [] => some ""
  | .char c false :: rest => (plainWord? rest).map fun more => String.ofList (c :: more.toList)
  | _ :: _ => none

/-- The keywords. -/
def keywords : List String :=
  ["!", "case", "do", "done", "elif", "else", "esac", "fi", "for", "if", "in", "then", "until",
    "while", "\x7b", "\x7d"]

namespace Token

/-- The keyword that a token is. -/
def keyword? : Token → Option String
  | .word parts => (plainWord? parts).filter keywords.contains
  | _ => none

/-- What a token is called where it is not expected. Whether a word may be a keyword depends on the
place. -/
def display (mayBeKeyword : Bool) : Token → String
  | .endOfText => "end of file"
  | .newline => "newline"
  | .mark text => s!"\"{text}\""
  | .redirection _ _ => "redirection"
  | .word parts =>
    match (Token.word parts).keyword? with
    | some name => if mayBeKeyword then s!"\"{name}\"" else "word"
    | none => "word"

/-- Whether a token is a mark. -/
def isMark (text : String) : Token → Bool
  | .mark found => found = text
  | _ => false

/-- Whether a token is the end of the text. -/
def endsText : Token → Bool
  | .endOfText => true
  | _ => false

/-- Whether commands cannot go on with a token. -/
def endsList (t : Token) : Bool :=
  match t with
  | .endOfText => true
  | .mark text => text = ")" || text = ";;"
  | .word _ =>
    t.keyword?.any fun name =>
      ["do", "done", "elif", "else", "esac", "fi", "then", "\x7d"].contains name
  | _ => false

end Token

/-- The variable that a word defines, with the word for its value. Behind the sign and behind colons
a tilde stands for the home directory. -/
def definition? (parts : Word) : Option (String × Word) :=
  let name := parts.takeWhile fun
    | .char c false => c ≠ '='
    | _ => false
  match plainWord? name, parts.drop name.length with
  | some text, .char '=' false :: value => if isName text then some (text, value) else none
  | _, _ => none

/-- Marks the tildes that stand for the home directory: those at the beginning of a word, and those
behind a colon if `behindColons`, when a slash, a colon or the end follows. -/
def markTildes (behindColons atStart : Bool) : Word → Word
  | [] => []
  | .char '~' false :: rest =>
    let ends := match rest with
      | [] => true
      | .char c false :: _ => c = '/' || (behindColons && c = ':')
      | _ => false
    (if atStart && ends then Part.home else .char '~' false) :: markTildes behindColons false rest
  | .char c quoted :: rest =>
    .char c quoted :: markTildes behindColons (behindColons && c = ':' && !quoted) rest
  | part :: rest => part :: markTildes behindColons false rest

/-- The names of the operations that no function may be called. -/
def reservedNames : List String :=
  [".", ":", "break", "continue", "eval", "exec", "exit", "export", "readonly", "return", "set",
    "shift", "times", "trap", "unset"]

namespace Read

/-- Refuses the next token. -/
def unexpected {α : Type} (inner : Bool → Read Command) (mayBeKeyword : Bool)
    (wanted : Option String) : Read α := do
  let found ← take inner
  let hint := wanted.elim "" fun name => s!" (expecting \"{name}\")"
  fail (found.display mayBeKeyword ++ " unexpected" ++ hint)

/-- Takes a keyword, if it comes next. -/
def accept (inner : Bool → Read Command) (name : String) : Read Bool := do
  let isNext := (← peek inner).keyword? = some name
  if isNext then
    let _ ← take inner
  return isNext

/-- Takes a keyword that has to come next. -/
def expect (inner : Bool → Read Command) (name : String) : Read Unit := do
  unless ← accept inner name do unexpected inner true (some name)

/-- Takes a mark, if it comes next. -/
def acceptMark (inner : Bool → Read Command) (text : String) : Read Bool := do
  let isNext := (← peek inner).isMark text
  if isNext then
    let _ ← take inner
  return isNext

/-- Moves behind line ends. -/
def skipLines (inner : Bool → Read Command) : Nat → Read Unit
  | 0 => return
  | fuel + 1 => do
    if let .newline ← peek inner then
      let _ ← take inner
      skipLines inner fuel

/-- Takes words as long as there are any. -/
def words (inner : Bool → Read Command) : Nat → Read (List Word)
  | 0 => return []
  | fuel + 1 => do
    match ← peek inner with
    | .word parts =>
      let _ ← take inner
      return markTildes false true parts :: (← words inner fuel)
    | _ => return []

/-- Takes what stands behind the operator of a redirection. -/
def redirection (inner : Bool → Read Command) (stream : Option Nat) (operator : String) :
    Read Redirection := do
  let isInput := operator.toList.head? = some '<'
  let stream := stream.getD (if isInput then 0 else 1)
  if operator = "<<" || operator = "<<-" then
    let _ ← takeWhile fun c => c = ' ' || c = '\t'
    if (← char?).all endsWord then unexpected inner false none
    return .here stream (← hereDocument inner (operator = "<<-"))
  match ← peek inner with
  | .word parts =>
    let _ ← take inner
    let name := markTildes false true parts
    match operator with
    | "<" => return .file stream .read name
    | "<>" => return .file stream .readWrite name
    | ">>" => return .file stream .append name
    | "<&" | ">&" =>
      -- a stream is named by one digit, and a dash stands for none
      if (plainWord? parts).any fun text =>
          text ≠ "-" && !(text.length = 1 && text.toList.all Char.isDigit) then
        fail "Bad fd number"
      return .copy stream parts
    | _ => return .file stream .write name
  | _ => unexpected inner false none

/-- Takes redirections as long as there are any. -/
def redirections (inner : Bool → Read Command) : Nat → Read (List Redirection)
  | 0 => return []
  | fuel + 1 => do
    match ← peek inner with
    | .redirection stream operator =>
      let _ ← take inner
      let first ← redirection inner stream operator
      return first :: (← redirections inner fuel)
    | _ => return []

/-- Takes the patterns of an arm with the closing parenthesis. -/
def patterns (inner : Bool → Read Command) : Nat → Read (List Word)
  | 0 => return []
  | fuel + 1 => do
    match ← take inner with
    | .word parts =>
      let first := markTildes false true parts
      if ← acceptMark inner "|" then return first :: (← patterns inner fuel)
      unless ← acceptMark inner ")" do unexpected inner false (some ")")
      return [first]
    | .endOfText => unexpected inner false (some ")")
    | found =>
      modify fun s => { s with ahead := some found }
      unexpected inner false (some ")")

mutual

/-- Reads the commands of a part of a script: up to a closing parenthesis, which is taken, or up to
the end of the text. -/
def script (closing : Bool) : Nat → Read Command
  | 0 => return .nothing
  | fuel + 1 => do
    let inner closing := script closing fuel
    skipLines inner fuel
    let body ← if (← peek inner).endsList then pure .nothing else list true fuel
    if closing then
      unless ← acceptMark inner ")" do unexpected inner true (some ")")
    else
      match ← peek inner with
      | .endOfText => pure ()
      | _ => unexpected inner true none
    return body
termination_by structural fuel => fuel

/-- Reads commands up to a token that ends them; `started` tells whether there is one already. -/
def list (started : Bool) : Nat → Read Command
  | 0 => return .nothing
  | fuel + 1 => do
    let inner closing := script closing fuel
    skipLines inner fuel
    let next ← peek inner
    if next.endsText || (started && next.endsList) then return .nothing
    let first ← andOr fuel
    let isBehind ← acceptMark inner "&"
    let first := if isBehind then .background first else first
    let goesOn ←
      if isBehind then pure true
      else if ← acceptMark inner ";" then pure true
      else
        match ← peek inner with
        | .newline => pure true
        | _ => pure false
    if goesOn then return .sequence first (← list true fuel) else return first
termination_by structural fuel => fuel

/-- Reads commands that depend on each other. -/
def andOr : Nat → Read Command
  | 0 => return .nothing
  | fuel + 1 => do andOrFrom (← pipeline fuel) fuel
termination_by structural fuel => fuel

/-- Reads what may follow a command that it depends on. -/
def andOrFrom (first : Command) : Nat → Read Command
  | 0 => return first
  | fuel + 1 => do
    let inner closing := script closing fuel
    if ← acceptMark inner "&&" then
      skipLines inner fuel
      andOrFrom (.both first (← pipeline fuel)) fuel
    else if ← acceptMark inner "||" then
      skipLines inner fuel
      andOrFrom (.either first (← pipeline fuel)) fuel
    else return first
termination_by structural fuel => fuel

/-- Reads a pipeline. -/
def pipeline : Nat → Read Command
  | 0 => return .nothing
  | fuel + 1 => do
    let inner closing := script closing fuel
    let isNegated ← accept inner "!"
    let stages ← stages fuel
    let body := match stages with
      | [stage] => stage
      | stages => .pipeline stages
    return if isNegated then .negated body else body
termination_by structural fuel => fuel

/-- Reads the stages of a pipeline. -/
def stages : Nat → Read (List Command)
  | 0 => return []
  | fuel + 1 => do
    let inner closing := script closing fuel
    let first ← command fuel
    if ← acceptMark inner "|" then
      skipLines inner fuel
      return first :: (← stages fuel)
    else return [first]
termination_by structural fuel => fuel

/-- Reads a command. -/
def command : Nat → Read Command
  | 0 => return .nothing
  | fuel + 1 => do
    let inner closing := script closing fuel
    let found ← peek inner
    let line ← line
    let isSimple := match found with
      | .word _ => found.keyword?.isNone
      | .redirection _ _ => true
      | _ => false
    if isSimple then simple line [] [] [] fuel
    else
      let body ← compound line fuel
      match ← redirections inner fuel with
      | [] => return body
      | found => return .redirected line body found
termination_by structural fuel => fuel

/-- Reads a command that other commands are parts of. -/
def compound (line : Nat) : Nat → Read Command
  | 0 => return .nothing
  | fuel + 1 => do
    let inner closing := script closing fuel
    if ← accept inner "if" then
      let body ← choice fuel
      expect inner "fi"
      return body
    else if ← accept inner "while" then loop false fuel
    else if ← accept inner "until" then loop true fuel
    else if ← accept inner "for" then each line fuel
    else if ← accept inner "case" then select line fuel
    else if ← acceptMark inner "(" then
      let body ← list false fuel
      unless ← acceptMark inner ")" do unexpected inner true (some ")")
      return .subshell line body
    else if ← accept inner "\x7b" then
      let body ← list false fuel
      expect inner "\x7d"
      return body
    else unexpected inner true none
termination_by structural fuel => fuel

/-- Reads a choice behind its first keyword, without its last one. -/
def choice : Nat → Read Command
  | 0 => return .nothing
  | fuel + 1 => do
    let inner closing := script closing fuel
    let test ← list false fuel
    expect inner "then"
    let body ← list false fuel
    if ← accept inner "elif" then return .choice test body (← choice fuel)
    else if ← accept inner "else" then return .choice test body (← list false fuel)
    else return .choice test body .nothing
termination_by structural fuel => fuel

/-- Reads a loop behind its first keyword. -/
def loop (isUntil : Bool) : Nat → Read Command
  | 0 => return .nothing
  | fuel + 1 => do
    let inner closing := script closing fuel
    let test ← list false fuel
    expect inner "do"
    let body ← list false fuel
    expect inner "done"
    return .loop isUntil test body
termination_by structural fuel => fuel

/-- Reads a loop over words behind its first keyword; without words it goes over the arguments. -/
def each (line : Nat) : Nat → Read Command
  | 0 => return .nothing
  | fuel + 1 => do
    let inner closing := script closing fuel
    let name ← match ← take inner with
      | .word parts =>
        match (plainWord? parts).filter isName with
        | some name => pure name
        | none => fail "Bad for loop variable"
      | _ => fail "Bad for loop variable"
    skipLines inner fuel
    let given ←
      if ← accept inner "in" then
        let given ← words inner fuel
        match ← peek inner with
        | .newline =>
          let _ ← take inner
        | found =>
          unless found.isMark ";" do unexpected inner false none
          let _ ← take inner
        pure given
      else
        let _ ← acceptMark inner ";"
        pure [[Part.parameter "@" .value true]]
    skipLines inner fuel
    expect inner "do"
    let body ← list false fuel
    expect inner "done"
    return .each line name given body
termination_by structural fuel => fuel

/-- Reads a choice by patterns behind its first keyword. -/
def select (line : Nat) : Nat → Read Command
  | 0 => return .nothing
  | fuel + 1 => do
    let inner closing := script closing fuel
    match ← peek inner with
    | .word parts =>
      let _ ← take inner
      skipLines inner fuel
      expect inner "in"
      return .select line (markTildes false true parts) (← arms fuel)
    | _ => unexpected inner false (some "word")
termination_by structural fuel => fuel

/-- Reads the arms of a choice by patterns, with the last keyword. -/
def arms : Nat → Read (List (List Word × Command))
  | 0 => return []
  | fuel + 1 => do
    let inner closing := script closing fuel
    skipLines inner fuel
    if ← accept inner "esac" then return []
    let _ ← acceptMark inner "("
    let alternatives ← patterns inner fuel
    let body ← list true fuel
    if ← acceptMark inner ";;" then return (alternatives, body) :: (← arms fuel)
    else
      unless ← accept inner "esac" do unexpected inner true (some ";;")
      return [(alternatives, body)]
termination_by structural fuel => fuel

/-- Reads a simple command, or a function if there is an empty pair of parentheses behind its only
word. What was read of it so far is given, last parts first. -/
def simple (line : Nat) (definitions : List (String × Word)) (given : List Word)
    (found : List Redirection) : Nat → Read Command
  | 0 => return .nothing
  | fuel + 1 => do
    let inner closing := script closing fuel
    match ← peek inner with
    | .word parts =>
      let _ ← take inner
      match if given.isEmpty then definition? parts else none with
      | some (name, value) =>
        simple line ((name, markTildes true true value) :: definitions) given found fuel
      | none => simple line definitions (markTildes false true parts :: given) found fuel
    | .redirection stream operator =>
      let _ ← take inner
      let first ← redirection inner stream operator
      simple line definitions given (first :: found) fuel
    | next =>
      match if next.isMark "(" && definitions.isEmpty && found.isEmpty then given else [] with
      | [name] =>
        let _ ← take inner
        unless ← acceptMark inner ")" do unexpected inner false (some ")")
        match (plainWord? name).filter fun name => isName name && !reservedNames.contains name with
        | none => fail "Bad function name"
        | some name =>
          skipLines inner fuel
          return .define line name (← command fuel)
      | _ => return .simple line definitions.reverse given.reverse found.reverse
termination_by structural fuel => fuel

end

/-- Reads a line of commands, if there is one. -/
def commandLine (fuel : Nat) : Read (Option Command) := do
  let inner closing := script closing fuel
  match ← peek inner with
  | .endOfText => return none
  | .newline =>
    let _ ← take inner
    return some .nothing
  | _ =>
    let body ← lineFrom fuel
    return some body
where
  /-- The commands of one line, which end with the line. -/
  lineFrom : Nat → Read Command
    | 0 => return .nothing
    | fuel + 1 => do
      let inner closing := script closing fuel
      let first ← andOr fuel
      let isBehind ← acceptMark inner "&"
      let first := if isBehind then .background first else first
      let isParted ← if isBehind then pure true else acceptMark inner ";"
      match ← peek inner with
      | .endOfText => return first
      | .newline =>
        let _ ← take inner
        return first
      | _ =>
        unless isParted do unexpected inner true none
        return .sequence first (← lineFrom fuel)

/-- Reads lines up to the end of the text, or up to one that is no command. -/
def program (s : Reader) : Nat → Program
  | 0 => ⟨[], none⟩
  | fuel + 1 =>
    match (commandLine (8 * s.rest.length + 16)).run s with
    | .error complaint => ⟨[], some (complaint.line, complaint.message)⟩
    | .ok (none, _) => ⟨[], none⟩
    | .ok (some body, s) =>
      let rest := program s fuel
      { rest with lines := body :: rest.lines }

end Read

/-- Reads a script. -/
def Program.ofText (text : List Char) : Program :=
  Read.program (.start text) (text.length + 1)

end Branchwork.Script
