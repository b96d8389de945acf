import Branchwork.Script.Condition
import Branchwork.Script.Format
import Branchwork.Script.Utility.Programs

/-!
# Operations of a shell

The operations that a shell takes itself, as far as they run no other commands: they write texts,
test conditions, read lines, and change the variables, the arguments, the directory and the
switches. Some are special: what they cannot do ends the script, and the variables that are set in
front of them stay set.
-/

namespace Branchwork.Script.Builtin

open Sh

/-! ## Words -/

/-- The number that the running script has as a process. -/
def ownNumber : String := "1"

/-- The number that the last process has that runs behind. -/
def behindNumber : String := "2"

/-- The greatest number that an operation takes. -/
def greatestCount : Nat := 2147483647

/-- The number that a word stands for. -/
def number (word : String) : Sh Nat := do
  match (Utility.nat? word).filter (· ≤ greatestCount) with
  | some n => return n
  | none => abort s!"Illegal number: {word}"

/-- The letters of the options in front of words, and the other words. The letters in `valued` take
the rest of their word or the next word with them. -/
def options (plain valued : String) : Nat → List String → Sh (List Char × List String)
  | 0, words => return ([], words)
  | _, [] => return ([], [])
  | fuel + 1, word :: rest => do
    match word.toList with
    | ['-'] => return ([], word :: rest)
    | ['-', '-'] => return ([], rest)
    | '-' :: letters =>
      let (front, value) := (letters.takeWhile fun c => !valued.toList.contains c,
        letters.dropWhile fun c => !valued.toList.contains c)
      match front.find? fun c => !plain.toList.contains c with
      | some c => abort s!"Illegal option -{c}"
      | none =>
        if value.length = 1 && rest.isEmpty then
          let letter := String.ofList value
          abort s!"No arg for -{letter} option"
        let (more, rest) ←
          options plain valued fuel (if value.length = 1 then rest.drop 1 else rest)
        return (front ++ value.take 1 ++ more, rest)
    | _ => return ([], word :: rest)

/-- The words behind options without values. -/
def withOptions (plain : String) (words : List String) : Sh (List Char × List String) :=
  options plain "" (words.length + 1) words

/-- Writes a text to the output. -/
def emit (name : String) (text : List Char) (status : Int) : Sh Int := do
  if text.isEmpty || (← write 1 text) then return status
  complain s!"{name}: I/O error"
  return 1

/-- A text between quotes. -/
def quote (text : String) : String :=
  "'" ++ "'\"'\"'".intercalate (text.splitOn "'") ++ "'"

/-- The name in front of the first sign of equality, and the value behind it. -/
def splitValue (word : String) : String × Option String :=
  let name := word.toList.takeWhile (· ≠ '=')
  match word.toList.drop name.length with
  | _ :: value => (String.ofList name, some (String.ofList value))
  | [] => (word, none)

/-! ## Texts and conditions -/

/-- Writes its words. -/
def echo (words : List String) : Sh Int := emit "echo" (Format.echo words) 0

/-- Fills a format with words. -/
def printf (words : List String) : Sh Int := do
  match (← withOptions "" words).2 with
  | [] => abort "usage: printf format [arg ...]"
  | format :: words =>
    let output := Format.printf format.toList (words.length + 1) words
    for warning in output.warnings do complain warning
    let status ← emit "printf" output.text (if output.warnings.isEmpty then 0 else 1)
    if output.failed then
      setStatus brokenStatus
      throw .broken
    return status

/-- Whether an operator says something true about a file. -/
def describes (s : Shell) (operator word : String) : Bool :=
  if word = "/dev/null" then ["-e", "-c", "-r", "-w"].contains operator
  else
    let found :=
      if word = "" then .error .missing else s.files.stat s.directory (.ofText (readable word))
    match found with
    | .ok (_, .file bytes) =>
      ["-e", "-f", "-r", "-w", "-O", "-G"].contains operator || (operator = "-s" && !bytes.isEmpty)
    | .ok (_, .directory) => ["-e", "-d", "-r", "-w", "-x", "-s", "-O", "-G"].contains operator
    | .error _ => false

/-- Tests what words say. -/
def test (words : List String) : Sh Int := do
  match Condition.holds (describes (← get)) words with
  | .ok holds => return if holds then 0 else 1
  | .error problem => abort problem.message

/-- Tests what words say up to a closing bracket. -/
def bracket (words : List String) : Sh Int := do
  if words.getLast? = some "]" then test words.dropLast else abort "missing ]"

/-! ## The directory -/

/-- The text of a location. -/
def locationText (place : Location) : String := byteText ("/" ++ "/".intercalate place)

/-- Writes the directory. -/
def pwd (words : List String) : Sh Int := do
  let _ ← withOptions "LP" words
  emit "pwd" (locationText (← get).directory ++ "\n").toList 0

/-- Goes to another directory: to one that is named, to the home directory, or with a dash to the
one before. -/
def cd (words : List String) : Sh Int := do
  let (_, words) ← withOptions "LP" words
  let word ←
    match words.head? with
    | none => pure ((← valueOf? "HOME").getD "")
    | some "-" => pure ((← valueOf? "OLDPWD").getD "")
    | some word => pure word
  let s ← get
  match s.files.stat s.directory (.ofText (readable word)) with
  | .ok (place, .directory) =>
    set { s with directory := place }
    putVariable "OLDPWD" ⟨some (locationText s.directory), true, false⟩
    putVariable "PWD" ⟨some (locationText place), true, false⟩
    if words.head? = some "-" then emit "cd" (locationText place ++ "\n").toList 0 else return 0
  | _ => abort s!"can't cd to {word}"

/-! ## Reading -/

/-- The first line of a text, what is behind it, and whether the line has an end. A backslash
quotes the next character and takes away the end of a line, unless the text is `raw`. -/
def firstLine (raw : Bool) : List Char → List Glyph × List Char × Bool
  | [] => ([], [], false)
  | '\n' :: rest => ([], rest, true)
  | '\\' :: rest =>
    if raw then
      let (line, behind) := firstLine raw rest
      (('\\', false) :: line, behind)
    else
      match rest with
      | [] => ([], [], false)
      | c :: rest =>
        let (line, behind) := firstLine raw rest
        (if c = '\n' then line else (c, true) :: line, behind)
  | c :: rest =>
    let (line, behind) := firstLine raw rest
    (if c = '\x00' then line else (c, false) :: line, behind)

/-- Whether a glyph separates the fields of a line. -/
def separates (separators : List Char) (g : Glyph) : Bool := !g.2 && separators.contains g.1

/-- Whether a glyph is a blank that separates the fields of a line. -/
def isGap (separators : List Char) (g : Glyph) : Bool :=
  separates separators g && Mark.isBlank g.1

/-- Moves behind the separator at the front of what is left of a line. -/
def behindSeparator (separators : List Char) (line : List Glyph) : List Glyph :=
  match line.dropWhile (isGap separators) with
  | g :: rest => if separates separators g then rest.dropWhile (isGap separators) else g :: rest
  | [] => []

/-- The fields of a line, as many as there are names for them. The last one gets what is left; if
that is one field, it does not get the separator behind it. -/
def lineFields (separators : List Char) : Nat → List Glyph → List String
  | 0, _ => []
  | 1, line =>
    let trimmed := (line.reverse.dropWhile (isGap separators)).reverse
    let field := trimmed.takeWhile fun g => !separates separators g
    let left := behindSeparator separators (trimmed.drop field.length)
    [String.ofList ((if left.isEmpty then field else trimmed).map (·.1))]
  | count + 1, line =>
    let field := line.takeWhile fun g => !separates separators g
    String.ofList (field.map (·.1)) ::
      lineFields separators count (behindSeparator separators (line.drop field.length))

/-- The characters that separate fields. -/
def separators : Sh (List Char) := do
  return ((← valueOf? "IFS").map String.toList).getD [' ', '\t', '\n']

/-- Reads a line from the input into variables. -/
def read (words : List String) : Sh Int := do
  let (given, names) ← options "r" "p" (words.length + 1) words
  if names.isEmpty then abort "arg count"
  let text := (← readAll 0).getD []
  let (line, behind, isEnded) := firstLine (given.contains 'r') text
  putBack 0 behind
  let separators ← separators
  let fields := lineFields separators names.length (line.dropWhile (isGap separators))
  for (name, field) in names.zip fields do setVariable name field
  return if isEnded then 0 else 1

/-! ## Variables -/

/-- Writes the variables of a kind in the order of their names. -/
def list (command front : String) (isWanted : Variable → Bool) : Sh Int := do
  let all := (← get).vars.filter fun (_, v) => isWanted v
  let shown := (all.mergeSort fun (m, _) (n, _) => m ≤ n).map fun (name, v) =>
    front ++ name ++ (v.value.elim "" fun value => "=" ++ quote value) ++ "\n"
  emit command (String.join shown).toList 0

/-- Changes variables, which may get new values, or lists those that are changed already. -/
def declare (command : String) (isChanged : Variable → Bool) (change : Variable → Variable)
    (words : List String) : Sh Int := do
  let (given, words) ← withOptions "p" words
  if words.isEmpty || !given.isEmpty then list command (command ++ " ") isChanged
  else
    for word in words do
      match splitValue word with
      | (name, some value) =>
        putVariable name (change { ← changeable name with value := some value })
      | (name, none) =>
        match (← get).vars.lookup name with
        | some v => putVariable name (change v)
        | none => putVariable name (change (← changeable name))
    return 0

/-- Makes variables known to programs. -/
def exports : List String → Sh Int :=
  declare "export" (·.isExported) fun v => { v with isExported := true }

/-- Makes variables read-only. -/
def freezes : List String → Sh Int :=
  declare "readonly" (·.isReadonly) fun v => { v with isReadonly := true }

/-- Removes variables or functions. -/
def unset (words : List String) : Sh Int := do
  let (given, words) ← withOptions "fv" words
  for word in words do
    if given.getLast? = some 'f' then
      modify fun s => { s with functions := s.functions.filter (·.1 ≠ word) }
    else
      let _ ← changeable word
      dropVariable word
  return 0

/-- Gives the running function variables of its own. -/
def «local» (words : List String) : Sh Int := do
  for word in words do
    let (name, value) := splitValue word
    let s ← get
    match s.saved with
    | none => abort "not in a function"
    | some saved =>
      unless (saved.lookup name).isSome do
        set { s with saved := some ((name, s.vars.lookup name) :: saved) }
      if let some value := value then setVariable name value
  return 0

/-- Leaves out arguments at the front. -/
def shift (words : List String) : Sh Int := do
  let count ← (words.head?.map number).getD (pure 1)
  if (← get).arguments.length < count then abort "can't shift that many"
  modify fun s => { s with arguments := s.arguments.drop count }
  return 0

/-! ## Switches -/

/-- The letters of the switches, in the order in which they are shown. -/
def switchLetters : List Char := "ubaCEVvxsnmiIfe".toList

/-- The long names of switches. -/
def switchNames : List (String × Char) :=
  [("errexit", 'e'), ("noglob", 'f'), ("ignoreeof", 'I'), ("interactive", 'i'), ("monitor", 'm'),
    ("noexec", 'n'), ("stdin", 's'), ("xtrace", 'x'), ("verbose", 'v'), ("vi", 'V'),
    ("emacs", 'E'), ("noclobber", 'C'), ("allexport", 'a'), ("notify", 'b'), ("nounset", 'u')]

/-- Turns a switch on or off. -/
def turn (on : Bool) (letter : Char) : Sh Unit := do
  unless switchLetters.contains letter do abort s!"Illegal option -{letter}"
  modify fun s =>
    let others := s.switches.filter (· ≠ letter)
    { s with switches := if on then letter :: others else others }

/-- Turns the switches of one word. An `o` takes the next word with it. -/
def turnAll (on : Bool) (next : List String) : List Char → Sh (List String)
  | [] => return next
  | 'o' :: rest => do
    match next with
    | [] => turnAll on next rest
    | name :: next =>
      match switchNames.lookup name with
      | some letter => turn on letter
      | none => abort s!"Illegal option -o {name}"
      turnAll on next rest
  | c :: rest => do
    turn on c
    turnAll on next rest

/-- Turns switches, and gives the words behind them and whether they become the arguments even if
there are none. -/
def turnWords : Nat → List String → Sh (List String × Bool)
  | 0, words => return (words, false)
  | _, [] => return ([], false)
  | fuel + 1, word :: rest => do
    match word.toList with
    | ['-'] =>
      turn false 'x'
      turn false 'v'
      return (rest, false)
    | ['-', '-'] => return (rest, true)
    | '-' :: letters => turnWords fuel (← turnAll true rest letters)
    | '+' :: letters => turnWords fuel (← turnAll false rest letters)
    | _ => return (word :: rest, false)

/-- Turns switches and sets the arguments, or lists the variables. -/
def «set» (words : List String) : Sh Int := do
  if words.isEmpty then list "set" "" (·.value.isSome)
  else
    let (arguments, clears) ← turnWords (words.length + 1) words
    if !arguments.isEmpty || clears then modify fun s => { s with arguments }
    return 0

/-! ## Ends -/

/-- The number of the loop that a word asks for, as far as there are loops. -/
def loopCount (words : List String) : Sh Nat := do
  let count ← (words.head?.map number).getD (pure 1)
  if count = 0 then
    let word := words.headD ""
    abort s!"Illegal number: {word}"
  return min count (← get).loops

/-- Leaves loops. -/
def «break» (words : List String) : Sh Int := do
  let count ← loopCount words
  if 0 < count then
    setStatus 0
    throw (.leave count)
  return 0

/-- Goes on with the next round of a loop. -/
def «continue» (words : List String) : Sh Int := do
  let count ← loopCount words
  if 0 < count then
    setStatus 0
    throw (.again count)
  return 0

/-- Leaves a function. -/
def «return» (words : List String) : Sh Int := do
  if let some word := words.head? then setStatus (← number word)
  throw .back

/-- Ends the script. -/
def exit (words : List String) : Sh Int := do
  if let some word := words.head? then setStatus ((← number word) % 256 : Nat)
  throw (.exit !words.isEmpty)

/-! ## Signals -/

/-- The numbers of signals by their names. -/
def signals : List (String × Nat) :=
  [("HUP", 1), ("INT", 2), ("QUIT", 3), ("ILL", 4), ("TRAP", 5), ("ABRT", 6), ("BUS", 7),
    ("FPE", 8), ("KILL", 9), ("USR1", 10), ("SEGV", 11), ("USR2", 12), ("PIPE", 13), ("ALRM", 14),
    ("TERM", 15), ("STKFLT", 16), ("CHLD", 17), ("CONT", 18), ("STOP", 19), ("TSTP", 20),
    ("TTIN", 21), ("TTOU", 22), ("URG", 23), ("XCPU", 24), ("XFSZ", 25), ("VTALRM", 26),
    ("PROF", 27), ("WINCH", 28), ("PWR", 30), ("SYS", 31)]

/-- What the signals do that neither end a program nor are sent to one. -/
def harmless : List String := ["CHLD", "CONT", "URG", "WINCH"]

/-- The signals that make a program wait for another one. -/
def halting : List String := ["STOP", "TSTP", "TTIN", "TTOU"]

/-- The name of the end of a script as a signal. -/
def endName : String := "EXIT"

/-- The name of the signal that a word stands for. -/
def signalName? (word : String) : Option String :=
  match Utility.nat? word with
  | some 0 => some endName
  | some n => (signals.find? fun (_, m) => m = n).map (·.1)
  | none =>
    let name := String.ofList (word.toList.map Char.toUpper)
    if name = endName || (signals.lookup name).isSome then some name else none

/-- Sets what is run when signals come, or lists it. -/
def trap (words : List String) : Sh Int := do
  let (_, words) ← withOptions "" words
  match words with
  | [] =>
    let s ← get
    let caught := signals.filterMap fun (name, _) => (s.caught.lookup name).map fun a => (name, a)
    let all := s.atExit.elim caught fun action => (endName, action) :: caught
    let shown := all.map fun (name, action) => s!"trap -- {quote action} {name}\n"
    emit "trap" (String.join shown).toList 0
  | [word] => place none [word]
  | "-" :: words => place none words
  | action :: words => place (some action) words
where
  /-- Sets the action for signals. -/
  place (action : Option String) : List String → Sh Int
    | [] => return 0
    | word :: rest => do
      match signalName? word with
      | none =>
        report s!"trap: {word}: bad trap"
        return 1
      | some name =>
        if name = endName then modify fun s => { s with atExit := action }
        else
          modify fun s =>
            let others := s.caught.filter (·.1 ≠ name)
            { s with caught := action.elim others fun action => (name, action) :: others }
        place action rest

/-- Sends a signal to the script. -/
def receive (name : String) : Sh Unit := do
  if name = endName then return
  let action := (← get).caught.lookup name
  match if name = "KILL" || name = "STOP" then none else action with
  | some "" => return
  | some action => modify fun s => { s with pending := s.pending ++ [action] }
  | none =>
    if harmless.contains name then return
    if halting.contains name then throw .stuck
    throw (.killed ((signals.lookup name).getD 0))

/-- How signals are sent. -/
def killUsage : String :=
  "Usage: kill [-s sigspec | -signum | -sigspec] [pid | job]... or\nkill -l [exitstatus]"

/-- Sends signals to processes. -/
def kill (words : List String) : Sh Int := do
  match words with
  | [] => abort killUsage
  | "-l" :: rest =>
    let shown : List String :=
      match rest.head?.bind Utility.nat? with
      | some n => (signals.filter fun (_, m) => m = n % 128).map (·.1)
      | none => "0" :: signals.map (·.1)
    emit "kill" (String.join (shown.map (· ++ "\n"))).toList 0
  | "-s" :: name :: rest => send name rest
  | "--" :: rest => send "TERM" rest
  | word :: rest =>
    match word.toList with
    | '-' :: name => send (String.ofList name) rest
    | _ => send "TERM" (word :: rest)
where
  /-- Sends a signal to processes. -/
  send (name : String) (numbers : List String) : Sh Int := do
    match signalName? name with
    | none => abort s!"invalid signal number or name: {name}"
    | some name =>
      if numbers.isEmpty then abort killUsage
      let statuses ← numbers.mapM fun word => do
        let s ← get
        if word = ownNumber then
          receive name
          return (0 : Int)
        else if word = behindNumber && s.behind.isSome then
          modify fun s => { s with busyUntil := s.time }
          return 0
        else
          let _ ← number word
          complain "No such process\n"
          return 1
      return statuses.foldl max 0

/-- Waits for what runs behind. -/
def wait (words : List String) : Sh Int := do
  modify fun s => { s with time := max s.time s.busyUntil }
  match words.head? with
  | none => return 0
  | some word =>
    let s ← get
    return if word = behindNumber then s.behind.getD 127 else 127

/-- Writes the rights that new files do not get. To set them changes nothing that can be seen. -/
def umask (words : List String) : Sh Int :=
  emit "umask" (if words.isEmpty then "0022\n" else "").toList 0

/-! ## The operations by name -/

/-- The operations that are special. -/
def specials : List (String × Operation) :=
  [(":", fun _ => return 0), ("break", Builtin.break), ("continue", Builtin.continue),
    ("exit", exit), ("export", exports), ("local", Builtin.local), ("readonly", freezes),
    ("return", Builtin.return), ("set", Builtin.set), ("shift", shift),
    ("times", fun _ => return 0), ("trap", trap), ("unset", unset)]

/-- The special operations that run commands. -/
def runners : List String := [".", "eval", "exec"]

/-- Whether an operation is special. -/
def isSpecial (name : String) : Bool := runners.contains name || (specials.lookup name).isSome

/-- The other operations. -/
def regulars : List (String × Operation) :=
  [("[", bracket), ("alias", fun _ => return 0), ("bg", fun _ => return 0), ("cd", cd),
    ("echo", echo), ("false", fun _ => return 1), ("fg", fun _ => return 0),
    ("hash", fun _ => return 0), ("jobs", fun _ => return 0), ("kill", kill), ("printf", printf),
    ("pwd", pwd), ("read", read), ("test", test), ("true", fun _ => return 0),
    ("ulimit", fun _ => emit "ulimit" "unlimited\n".toList 0),
    ("umask", umask), ("unalias", fun _ => return 0),
    ("wait", wait)]

/-- The operations whose words are definitions of variables. -/
def definers : List String := ["export", "local", "readonly"]

/-- What an operation with a name does, if it runs no commands. -/
def operation? (name : String) : Option Operation :=
  (specials.lookup name).or (regulars.lookup name)

/-- The operations that run commands or tell about them. -/
def isOperation (name : String) : Bool :=
  isSpecial name || (regulars.lookup name).isSome || name = "command" || name = "type"

end Branchwork.Script.Builtin
