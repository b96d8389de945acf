import Branchwork.Script.Redirect

/-!
# Running shell scripts

`step` runs a command, given how the commands inside of it are run; `execute` closes the knot with a
bound on how deep commands may nest. A script that exceeds it, or whose loop makes more rounds than
are allowed, counts as one that never ends.

A command is `tested` if its status is looked at: then a status other than zero does not end a
script that stops on errors.
-/

namespace Branchwork.Script

open Sh

namespace Run

/-! ## Scripts and their ends -/

section

variable (run : Bool → Command → Sh Unit)

/-- Runs a script; what is not understood is complained about. A script without commands has the
status zero. -/
def script (tested : Bool) (text : List Char) : Sh Unit := do
  let program := Program.ofText text
  let isEmpty := program.lines.all fun
    | .nothing => true
    | _ => false
  for line in program.lines do run tested line
  match program.complaint with
  | some (line, message) =>
    modify fun s => { s with line }
    abort message
  | none => if isEmpty then setStatus 0

/-- Takes a step and then runs the script that is meant for the end. It keeps the status unless it
sets another one. -/
def ended (step : Sh Unit) : Sh Unit := do
  match ← attempt step with
  | .error (.killed signal) => throw (.killed signal)
  | .error .stuck => throw .stuck
  | _ =>
    let s ← get
    if let some action := s.atExit then
      set { s with atExit := none }
      match ← attempt (script run false action.toList) with
      | .error (.exit true) | .error .broken => return
      | .error (.killed signal) => throw (.killed signal)
      | .error .stuck => throw .stuck
      | _ => setStatus s.status

/-- The output of a command, which is run as a shell of its own. -/
def captured (command : Command) : Sh (List Char) := do
  let before ← get
  let number ← addChannel (.collected [])
  apart do
    lead 1 (some number)
    ended run (run false command)
  let text ← collectedText number
  modify fun s =>
    { s with
      channels := s.channels.take before.channels.length
      status := before.status
      taken := match command with
        | .nothing => 0
        | _ => s.status }
  return text

/-- Ends a script that stops on errors if there is one. -/
def stopOnError (tested : Bool) : Sh Unit := do
  if !tested && (← isOn 'e') && (← get).status ≠ 0 then throw (.exit false)

/-! ## Programs -/

/-- The names of the shells. -/
def shells : List String := ["sh", "dash", "bash"]

/-- The words for the end of a program by a signal, as far as a shell tells about it. -/
def signalWords : List (Int × String) :=
  [(1, "Hangup"), (3, "Quit"), (6, "Aborted"), (9, "Killed"), (10, "User defined signal 1"),
    (11, "Segmentation fault"), (12, "User defined signal 2"), (14, "Alarm clock"),
    (15, "Terminated")]

/-- The variables of a new shell. -/
def initialVars (environment : Environment) (place : Location) : List (String × Variable) :=
  let given := (environment.filter fun (name, _) => isName name).map fun (name, value) =>
    (name, (⟨some value, true, false⟩ : Variable))
  let own := [("IFS", " \t\n"), ("OPTIND", "1"), ("PS1", "# "), ("PS2", "> "), ("PS4", "+ ")]
  let all := own.foldl (fun all (name, value) =>
    putEntry name (⟨some value, false, false⟩ : Variable) all) given
  putEntry "PWD" ⟨some (Builtin.locationText place), true, false⟩ all

/-- The letters of the options of a shell, and the words behind them. -/
def shellOptions : List String → Except Char (List Char × List String)
  | [] => .ok ([], [])
  | word :: rest =>
    match word.toList with
    | ['-'] | ['-', '-'] => .ok ([], rest)
    | '-' :: letters => do
      let known := 'c' :: Builtin.switchLetters
      if let some c := letters.find? fun c => !known.contains c then throw c
      let (more, rest) ← shellOptions rest
      return (letters ++ more, rest)
    | _ => .ok ([], word :: rest)

/-- Runs a script as a new shell. -/
def newShell (name : String) (arguments : List String) (switches : List Char) (text : List Char) :
    Sh Unit := do
  let environment ← environment
  let result ← attempt <| apart do
    modify fun s =>
      { s with
        name, arguments, switches
        vars := initialVars environment s.directory
        functions := [], saved := none, calls := 0, loops := 0
        status := 0, taken := 0, behind := none
        line := 0, operation := none }
    ended run (script run false text)
  match result with
  | .error (.killed signal) =>
    if let some words := signalWords.lookup signal then report words
    setStatus (128 + signal)
  | result => resume result

/-- Runs a shell with words: a script that is given by an option, by a file or as the input. -/
def shell (program : String) (words : List String) : Sh Unit := do
  let refuse (message : String) : Sh Unit := do
    report s!"{program}: 0: {message}"
    setStatus brokenStatus
  match shellOptions words with
  | .error c => refuse s!"Illegal option -{c}"
  | .ok (letters, words) =>
    let switches := letters.filter (· ≠ 'c')
    if letters.contains 'c' then
      match words with
      | [] => refuse "-c requires an argument"
      | text :: words =>
        newShell run (words.headD program) (words.drop 1) switches text.toList
    else if letters.contains 's' || words.isEmpty then
      newShell run program words switches ((← readAll 0).getD [])
    else
      let file := words.headD ""
      match ← Utility.contents file with
      | .ok text => newShell run file (words.drop 1) switches text
      | .error reason =>
        let text := if reason = FileSystem.Reason.missing.text then "No such file" else reason
        refuse s!"cannot open {file}: {text}"

/-- Runs a program, if there is one, and complains if there is none. -/
def program (words : List String) : Sh Unit := do
  let word := words.headD ""
  let name := Utility.nameOf word
  let s ← get
  let isPath := word.contains '/'
  if isPath && (s.files.stat s.directory (.ofText (readable word))).toBool then
    complain s!"{word}: Permission denied"
    setStatus 126
  else if !isPath && !Utility.isSearched (← valueOf? "PATH") then missing word
  else
    match Utility.programs.lookup name with
    | some operation => setStatus (← operation (words.drop 1))
    | none => if shells.contains name then shell run word (words.drop 1) else missing word
where
  /-- Complains that there is no program. -/
  missing (word : String) : Sh Unit := do
    complain s!"{word}: not found"
    setStatus 127

/-- Whether there is a program with a name. -/
def isProgram (name : String) : Bool :=
  (Utility.programs.lookup name).isSome || shells.contains name || name = "env" ||
    name = "printenv"

/-- Writes the variables that programs get, or runs a program with other ones. -/
def env (start : List String → Sh Unit) (words : List String) : Sh Unit := do
  let clears := words.head? = some "-i" || words.head? = some "-"
  let words := if clears then words.drop 1 else words
  let isDefinition (word : String) := word.contains '='
  let before := (← get).vars
  if clears then
    modify fun s =>
      { s with vars := before.map fun (name, v) => (name, { v with isExported := false }) }
  for word in words.takeWhile isDefinition do
    let (name, value) := Builtin.splitValue word
    putVariable name ⟨value, true, false⟩
  match words.dropWhile isDefinition with
  | [] =>
    let lines := (← environment).map fun (name, value) => s!"{name}={value}\n"
    setStatus (← Utility.emit "env" (String.join lines).toList)
  | words =>
    if isProgram (Utility.nameOf (words.headD "")) then start words
    else
      let word := words.headD ""
      report s!"env: '{word}': No such file or directory"
      setStatus 127
  modify fun s => { s with vars := before }

/-- Writes the values of variables that programs get. -/
def printenv (names : List String) : Sh Unit := do
  let environment ← environment
  let values := names.filterMap environment.get?
  let _ ← Utility.emit "printenv" (String.join (values.map (· ++ "\n"))).toList
  setStatus (if values.length = names.length then 0 else 1)

/-- Runs a program. Those that deal with variables may run another one, with fewer words. -/
def externalWithin : (count : Nat) → List String → Sh Unit
  | 0, words => program run words
  | count + 1, words =>
    match Utility.nameOf (words.headD ""), words.drop 1 with
    | "env", words => env (externalWithin count) words
    | "printenv", [] => env (externalWithin count) []
    | "printenv", names => printenv names
    | _, _ => program run words

/-- Runs a program. -/
def external (words : List String) : Sh Unit := externalWithin run words.length words

/-! ## What names mean -/

/-- Tells what a name means: in words, or by what would be run. -/
def describe (inWords : Bool) (name : String) : Sh Int := do
  let s ← get
  let tell (words shown : String) : Sh Int :=
    Builtin.emit "type" ((if inWords then s!"{name} {words}" else shown) ++ "\n").toList 0
  if keywords.contains name then tell "is a shell keyword" name
  else if (s.functions.lookup name).isSome then tell "is a shell function" name
  else if Builtin.isSpecial name then tell "is a special shell builtin" name
  else if Builtin.isOperation name then tell "is a shell builtin" name
  else
    let path := (Utility.directories.getLast?.getD "") ++ name
    if isProgram name then tell s!"is {path}" path
    else if inWords then Builtin.emit "type" s!"{name}: not found\n".toList 127
    else return 127

/-- Tells what names mean. -/
def describeAll (inWords : Bool) (names : List String) : Sh Unit := do
  setStatus ((← names.mapM (describe inWords)).foldl max 0)

/-! ## Simple commands -/

/-- The greatest count of functions that run inside of each other. -/
def maxCalls : Nat := 1000

/-- Calls a function: it has arguments and variables of its own. -/
def call (tested : Bool) (body : Command) (arguments : List String) : Sh Unit := do
  let before ← get
  if maxCalls ≤ before.calls then
    let count := toString maxCalls
    abort s!"Maximum function recursion depth ({count}) reached"
  set { before with arguments, saved := some [], calls := before.calls + 1, loops := 0 }
  let result ← attempt (run tested body)
  for (name, old) in (← get).saved.getD [] do
    match old with
    | some v => putVariable name v
    | none => dropVariable name
  modify fun s =>
    { s with
      arguments := before.arguments, saved := before.saved, calls := before.calls
      loops := before.loops }
  match result with
  | .error .back => return
  | result => resume result

/-- Runs the script in a file as a part of the running one. -/
def source (words : List String) : Sh Unit := do
  match words with
  | [] => setStatus 0
  | file :: _ =>
    if !file.contains '/' then abort s!"{file}: not found"
    let s ← get
    match s.files.readFile s.directory (.ofText (readable file)) with
    | .error _ =>
      if file = Redirect.emptyName then setStatus 0 else abort s!"cannot open {file}: No such file"
    | .ok bytes =>
      match ← attempt (naming (some file) (script run false (ofBytes bytes))) with
      | .error .back => return
      | result => resume result

/-- The words of a command behind those that only ask for operations and programs, and what is asked
about them instead of running them. -/
def stripped : Nat → List String → List String × Option Bool
  | 0, words => (words, none)
  | fuel + 1, words =>
    match words with
    | "command" :: rest =>
      match rest with
      | "-v" :: names => ((names.filter (· ≠ "--")).take 1, some false)
      | "-V" :: names => ((names.filter (· ≠ "--")).take 1, some true)
      | "-p" :: rest | "--" :: rest | rest => stripped fuel rest
    | words => (words, none)

/-- Runs the actions for the signals that have come. -/
def answer : Sh Unit := do
  let s ← get
  unless s.pending.isEmpty do
    set { s with pending := [] }
    for action in s.pending do script run false action.toList
    setStatus s.status

/-- Runs an operation of the shell. What a special one cannot do ends the script. -/
def operation (tested isSpecial : Bool) (name : String) (words : List String) : Sh Unit := do
  let step : Sh Unit :=
    match name with
    | "eval" => script run tested (" ".intercalate words).toList
    | "." => source run words
    | "exec" =>
      if words.isEmpty then setStatus 0
      else do
        -- another program knows nothing of the script for the end
        if isProgram (Utility.nameOf (words.headD "")) then
          modify fun s => { s with atExit := none }
        external run words
        throw (.exit false)
    | "type" => describeAll true words
    | "command" => setStatus 0
    | _ =>
      match Builtin.operation? name with
      | some operation => do setStatus (← operation words)
      | none => return
  match ← attempt (naming (some name) step) with
  | .error .broken => if isSpecial then throw .broken
  | result => resume result

/-- Runs the words of a command. `direct` tells that functions do not count. -/
def dispatch (tested direct isSpecial : Bool) (words : List String) : Sh Unit := do
  match words with
  | [] => modify fun s => { s with status := s.taken }
  | name :: arguments =>
    let function := (← get).functions.lookup name
    match function.filter fun _ => !direct with
    | some body => call run tested body arguments
    | none =>
      if Builtin.isOperation name then operation run tested isSpecial name arguments
      else external run words
  answer run

/-- The fields of the words of a command. Behind the name of an operation that defines variables,
definitions are fields. -/
def commandFields (capture : Command → Sh (List Char)) (before : List String) :
    List Word → Sh (List String)
  | [] => return before
  | word :: rest => do
    let (name, _) := stripped before.length before
    let defines := name.head?.any Builtin.definers.contains
    let found ← if defines then Expand.definitionFields capture word else Expand.fields capture word
    commandFields capture (before ++ found) rest

/-- Sets the variables in front of a command; gives them as they are shown. -/
def assign (capture : Command → Sh (List Char)) (exports : Bool) :
    List (String × Word) → Sh (List String)
  | [] => return []
  | (name, value) :: rest => do
    let text ← Expand.text capture value
    let v ← changeable name
    putVariable name { v with value := some text, isExported := v.isExported || exports }
    return s!"{name}={text}" :: (← assign capture exports rest)

/-- Runs a simple command. -/
def simple (tested : Bool) (line : Nat) (definitions : List (String × Word)) (words : List Word)
    (redirections : List Redirection) : Sh Unit := do
  modify fun s => { s with line, taken := 0 }
  let capture := captured run
  let given ← commandFields capture [] words
  let (named, question) := stripped given.length given
  let direct := named.length < given.length
  let name := named.headD ""
  let isFunction := !direct && ((← get).functions.lookup name).isSome
  let isSpecial := !direct && !isFunction && Builtin.isSpecial name
  let errors ← channelOf? 2
  let body : Sh Unit := do
    if !(← Redirect.all capture redirections) then
      setStatus brokenStatus
      if isSpecial then throw .broken
    else
      let isKept := given.isEmpty || isSpecial
      let before ← definitions.mapM fun (name, _) => return (name, (← get).vars.lookup name)
      let result ← attempt do
        let shown ← assign capture (!given.isEmpty && (!isSpecial || name = "exec")) definitions
        if ← isOn 'x' then
          if let some number := errors then
            let front := (← valueOf? "PS4").getD ""
            let _ ← writeTo number (front ++ " ".intercalate (shown ++ given) ++ "\n").toList
        match question with
        | some inWords => describeAll inWords named
        | none => dispatch run tested direct isSpecial named
      unless isKept do
        for (name, old) in before.reverse do
          match old with
          | some v => putVariable name v
          | none => dropVariable name
      resume result
  if name = "exec" && !isFunction then body
  else withStreams (redirections.map Redirect.stream) body

/-! ## Loops and pipelines -/

/-- Takes a step inside of a loop; tells whether the loop goes on. -/
def goesOn (step : Sh Unit) : Sh Bool := do
  match ← attempt step with
  | .ok _ => return true
  | .error (.leave count) => if 1 < count then throw (.leave (count - 1)) else return false
  | .error (.again count) => if 1 < count then throw (.again (count - 1)) else return true
  | .error stop => throw stop

/-- Takes a step in which there is one more loop. -/
def looped (step : Sh Unit) : Sh Unit := do
  let loops := (← get).loops
  modify fun s => { s with loops := loops + 1 }
  let result ← attempt step
  modify fun s => { s with loops }
  resume result

/-- Runs the rounds of a loop, of which `last` is the status of the one before. -/
def rounds (tested isUntil : Bool) (test body : Command) : (limit : Nat) → (last : Int) → Sh Unit
  | 0, _ => throw .stuck
  | limit + 1, last => do
    if !(← goesOn (run true test)) then setStatus last
    else if ((← get).status = 0) = isUntil then setStatus last
    else if ← goesOn (run tested body) then
      rounds tested isUntil test body limit (← get).status

/-- Runs the rounds of a loop over values. -/
def eachRound (tested : Bool) (name : String) (body : Command) :
    List String → (last : Int) → Sh Unit
  | [], last => setStatus last
  | value :: rest, _ => do
    setVariable name value
    if ← goesOn (run tested body) then eachRound tested name body rest (← get).status

/-- Runs the first arm that a text matches. -/
def arm (tested : Bool) (text : String) : List (List Word × Command) → Sh Unit
  | [] => setStatus 0
  | (patterns, body) :: rest => do
    let glyphs ← patterns.mapM (Expand.pattern (captured run))
    if glyphs.any fun pattern => Pattern.isMatch pattern text.toList then
      match body with
      | .nothing => setStatus 0
      | body => run tested body
    else arm tested text rest

/-- Runs the stages of a pipeline, each one on the output of the one before. They run at the same
time: the last one to end tells how long the pipeline takes. -/
def pipe (tested : Bool) (start latest : Nat) (input : Option (List Char)) :
    List Command → Sh Unit
  | [] => modify fun s => { s with time := latest }
  | stage :: rest => do
    modify fun s => { s with time := start }
    let output ← if rest.isEmpty then pure none else some <$> addChannel (.collected [])
    apart do
      if let some text := input then lead 0 (some (← addChannel (.supplied text)))
      if output.isSome then lead 1 output
      ended run (run tested stage)
    let text ← (output.map collectedText).getD (pure [])
    pipe tested start (max latest (← get).time) (some text) rest

/-- Runs a command behind the others, which do not wait for it. -/
def aside (body : Command) : Sh Unit := do
  let start := (← get).time
  let nothing ← addChannel .nothing
  apart do
    lead 0 (some nothing)
    ended run (run false body)
  modify fun s =>
    { s with
      behind := some s.status, status := 0, time := start
      busyUntil := max s.busyUntil s.time }

/-! ## Commands -/

/-- Runs a command. -/
def step (limit : Nat) (tested : Bool) : Command → Sh Unit
  | .nothing => return
  | .simple line definitions words redirections => do
    simple run tested line definitions words redirections
    stopOnError tested
  | .redirected line body redirections => do
    modify fun s => { s with line }
    withStreams (redirections.map Redirect.stream) do
      if ← Redirect.all (captured run) redirections then run tested body
      else
        setStatus brokenStatus
        stopOnError tested
  | .pipeline stages => do
    let start := (← get).time
    pipe run tested start start none stages
    stopOnError tested
  | .negated body => do
    run true body
    modify fun s => { s with status := if s.status = 0 then 1 else 0 }
  | .both first second => do
    run true first
    if (← get).status = 0 then run tested second
  | .either first second => do
    run true first
    if (← get).status ≠ 0 then run tested second
  | .sequence first second => do
    run tested first
    run tested second
  | .background body => aside run body
  | .subshell line body => do
    modify fun s => { s with line }
    apart (ended run (run tested body))
    stopOnError tested
  | .choice test body otherwise => do
    run true test
    if (← get).status = 0 then run tested body
    else
      match otherwise with
      | .nothing => setStatus 0
      | other => run tested other
  | .loop isUntil test body => looped (rounds run tested isUntil test body limit 0)
  | .each line name words body => do
    modify fun s => { s with line }
    let values ← words.mapM (Expand.fields (captured run))
    looped (eachRound run tested name body values.flatten 0)
  | .select line word arms => do
    modify fun s => { s with line }
    arm run tested (← Expand.text (captured run) word) arms
  | .define _ name body => do
    modify fun s => { s with functions := putEntry name body s.functions }
    setStatus 0

end

/-- The greatest count of rounds of a loop. -/
def maxRounds : Nat := 20000

/-- The greatest depth of commands inside of others. -/
def maxDepth : Nat := 10000

/-- Runs a command that nests no deeper than a bound. -/
def execute : (depth : Nat) → Bool → Command → Sh Unit
  | 0 => fun _ _ => throw .stuck
  | depth + 1 => step (execute depth) maxRounds

/-! ## Scenes -/

/-- The state in which a program starts: nothing can be read from its input, and what it writes is
collected. -/
def start (scene : Scene) : Shell :=
  let environment := scene.environment.map fun (name, value) => (byteText name, byteText value)
  { name := byteText scene.name
    arguments := scene.arguments.map byteText
    vars := initialVars environment scene.directory
    functions := [], saved := none, calls := 0, loops := 0
    files := scene.files, directory := scene.directory
    channels := [.nothing, .collected [], .collected []]
    streams := [(0, 0), (1, 1), (2, 2)]
    switches := [], status := 0, taken := 0, behind := none, line := 0, operation := none
    atExit := none, caught := [], pending := [], time := 0, busyUntil := 0 }

/-- What has come of a step that was taken from the state `s`, with the files behind it. -/
def result (s : Shell) (step : Sh Unit) : Result × FileSystem :=
  let (stopped, s) := (step.run).run s
  let written (number : Nat) : List UInt8 :=
    match s.channels[number]? with
    | some (.collected chunks) => toBytes chunks.reverse.flatten
    | _ => []
  let time := max s.time s.busyUntil
  let (status, milliseconds) : Int × Option Nat :=
    match stopped with
    | .error (.killed signal) => (-signal, some time)
    | .error .stuck => (0, none)
    | _ => (s.status % 256, some time)
  (⟨written 1, written 2, status, milliseconds⟩, s.files)

end Run

/-- Runs a script in a scene; gives the files behind it. -/
def Scene.runScript (scene : Scene) (text : List Char) : Result × FileSystem :=
  let run := Run.execute Run.maxDepth
  Run.result (Run.start scene) (Run.ended run (Run.script run false text))

/-- Runs a program with the name and the arguments of a scene, if there is one. -/
def Scene.runProgram? (scene : Scene) : Option (Result × FileSystem) :=
  let words := scene.arguments.map byteText
  (Utility.programs.lookup (Utility.nameOf scene.name)).map fun operation =>
    Run.result (Run.start scene) do setStatus (← operation words)

end Branchwork.Script
