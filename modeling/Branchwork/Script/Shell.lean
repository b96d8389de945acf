import Branchwork.Environment
import Branchwork.FileSystem.Basic
import Branchwork.Script.Syntax
import Branchwork.Text.Half

/-!
# The state of a shell

What a running script sees and changes: its arguments, variables and functions, the files, and the
streams that it reads and writes. A stream leads to a channel, and several streams may share one,
so that what is written to them comes in order.

All texts of a shell are texts of bytes: one character, below 256, for each byte.
-/

namespace Branchwork.Script

/-! ## Texts of bytes -/

/-- The text of bytes. -/
def ofBytes (bytes : List UInt8) : List Char := bytes.map fun b => Char.ofNat b.toNat

/-- The bytes of a text of bytes. -/
def toBytes (s : List Char) : List UInt8 := s.map fun c => c.toNat.toUInt8

/-- The bytes of a character, or the byte that it is the name of. -/
def charBytes (c : Char) : List Char :=
  match (Text.half? c).filter Text.isByteHalf with
  | some half => [Char.ofNat (half - 0xdc00)]
  | none => ofBytes (String.utf8EncodeChar c)

/-- A text as a text of bytes. -/
def byteText (s : String) : String := String.ofList (s.toList.flatMap charBytes)

/-- The text that a text of bytes stands for. -/
def readable (s : String) : String := Utf8.decodeLossy (toBytes s.toList)

/-! ## Programs and their results -/

/-- What a program is started with: its name, its arguments, the variables, the files, and where it
runs. -/
structure Scene where
  name : String
  arguments : List String
  environment : Environment
  files : FileSystem
  directory : Location

/-- What a program has done: its output, its errors, its status, and the time it took. The status
of a program that was ended by a signal is the number of the signal below zero. A program that
never ends takes no time that could be told. -/
structure Result where
  output : List UInt8
  errors : List UInt8
  status : Int
  milliseconds : Option Nat
deriving DecidableEq, Repr

/-- The result of a program that does nothing. -/
def Result.silent (status : Int) : Result := ⟨[], [], status, some 0⟩

/-- The result of a program that only complains. -/
def Result.complaint (status : Int) (message : String) : Result :=
  ⟨[], Utf8.encode (message ++ "\n"), status, some 0⟩

/-! ## The state -/

/-- Where a stream leads: what is written is collected, what is read comes from a text, or both
concern a file, from a place in it on. What is written to a file that appends goes to its end. -/
inductive Channel where
  | collected (chunks : List (List Char))
  | supplied (rest : List Char)
  | file (place : Location) (offset : Nat) (appends : Bool)
  | directory
  | nothing

/-- A variable. One without a value may still be exported. -/
structure Variable where
  value : Option String
  isExported : Bool
  isReadonly : Bool
deriving DecidableEq, Repr

/-- The state of a shell. `channels` is shared by all shells that come from one script; `streams`
tells to which of them each stream leads. `saved` holds the variables that the running function has
of its own, as they were before, `calls` counts the functions that are running, and `loops` the
loops that a command can leave. `switches` holds the letters of what is switched on, `taken` is the
status of the last command whose output the running command took, and `behind` that of the last one
that runs behind. Times are in milliseconds; `busyUntil` is when everything that runs behind has
ended.

`atExit` is the script that is run at the end, `caught` holds those that are run when signals come,
and `pending` those of the signals that have come. -/
structure Shell where
  name : String
  arguments : List String
  vars : List (String × Variable)
  functions : List (String × Command)
  saved : Option (List (String × Option Variable))
  calls : Nat
  loops : Nat
  files : FileSystem
  directory : Location
  channels : List Channel
  streams : List (Nat × Nat)
  switches : List Char
  status : Int
  taken : Int
  behind : Option Int
  line : Nat
  operation : Option String
  atExit : Option String
  caught : List (String × String)
  pending : List String
  time : Nat
  busyUntil : Nat

/-- Why a script does not go on with the next command: it ends, with a status that is told or with
the one that it has, it cannot go on, it leaves a number of loops or goes on with the next round of
one, it leaves a function, a signal ends it, or it never ends. -/
inductive Stop where
  | exit (isTold : Bool)
  | broken
  | leave (loops : Nat)
  | again (loops : Nat)
  | back
  | killed (signal : Int)
  | stuck
deriving DecidableEq, Repr

/-- A step of a shell. -/
abbrev Sh := ExceptT Stop (StateM Shell)

namespace Sh

/-! ## Variables -/

/-- The value of a variable, if it has one. -/
def valueOf? (name : String) : Sh (Option String) := do
  return ((← get).vars.lookup name).bind (·.value)

/-- Puts an entry into a table; one that is there keeps its place. -/
def putEntry {α : Type} (name : String) (entry : α) : List (String × α) → List (String × α)
  | [] => [(name, entry)]
  | (n, old) :: rest =>
    if n = name then (n, entry) :: rest else (n, old) :: putEntry name entry rest

/-- Puts a variable as it is. -/
def putVariable (name : String) (v : Variable) : Sh Unit :=
  modify fun s => { s with vars := putEntry name v s.vars }

/-- Removes a variable. -/
def dropVariable (name : String) : Sh Unit :=
  modify fun s => { s with vars := s.vars.filter (·.1 ≠ name) }

/-- The variables that programs get. -/
def environment : Sh Environment := do
  return (← get).vars.filterMap fun (name, v) =>
    if v.isExported then v.value.map fun value => (name, value) else none

/-! ## Streams -/

/-- The number of the channel that a stream leads to. -/
def channelOf? (stream : Nat) : Sh (Option Nat) := return (← get).streams.lookup stream

/-- The channel with a number. -/
def channelAt? (number : Nat) : Sh (Option Channel) := return (← get).channels[number]?

/-- The channel that a stream leads to. -/
def channel? (stream : Nat) : Sh (Option (Nat × Channel)) := do
  match ← channelOf? stream with
  | none => return none
  | some number => return (← channelAt? number).map fun channel => (number, channel)

/-- Changes a channel. -/
def setChannel (number : Nat) (channel : Channel) : Sh Unit :=
  modify fun s => { s with channels := s.channels.set number channel }

/-- Adds a channel and gives its number. -/
def addChannel (channel : Channel) : Sh Nat := do
  let number := (← get).channels.length
  modify fun s => { s with channels := s.channels ++ [channel] }
  return number

/-- Leads a stream to a channel, or closes it. -/
def lead (stream : Nat) (number : Option Nat) : Sh Unit :=
  modify fun s =>
    let others := s.streams.filter (·.1 ≠ stream)
    { s with streams := number.elim others fun number => (stream, number) :: others }

/-- The bytes of a file, none if it is gone. -/
def fileBytes (place : Location) : Sh (List UInt8) := do
  match (← get).files.get? place with
  | some (.file bytes) => return bytes
  | _ => return []

/-- Writes to a channel; false if it cannot be written to. -/
def writeTo (number : Nat) (text : List Char) : Sh Bool := do
  match ← channelAt? number with
  | some (.collected chunks) =>
    setChannel number (.collected (text :: chunks))
    return true
  | some (.file place offset appends) =>
    let old ← fileBytes place
    let start := if appends then old.length else offset
    let before := old.take start ++ List.replicate (start - old.length) 0
    let bytes := before ++ toBytes text ++ old.drop (start + text.length)
    modify fun s => { s with files := s.files.put place (.file bytes) }
    setChannel number (.file place (start + text.length) appends)
    return true
  | some .nothing => return true
  | some (.supplied _) | some .directory | none => return false

/-- Writes to a stream; false if it is closed or cannot be written to. -/
def write (stream : Nat) (text : List Char) : Sh Bool := do
  match ← channelOf? stream with
  | none => return false
  | some number => writeTo number text

/-- Takes everything that is left to read from a stream; none if it is closed or no text. -/
def readAll (stream : Nat) : Sh (Option (List Char)) := do
  match ← channel? stream with
  | some (number, .supplied rest) =>
    setChannel number (.supplied [])
    return some rest
  | some (number, .file place offset appends) =>
    let bytes ← fileBytes place
    setChannel number (.file place (max offset bytes.length) appends)
    return some (ofBytes (bytes.drop offset))
  | some (_, .nothing) | some (_, .collected _) => return some []
  | some (_, .directory) | none => return none

/-- Puts back what was read too much from a stream. -/
def putBack (stream : Nat) (text : List Char) : Sh Unit := do
  match ← channel? stream with
  | some (number, .supplied rest) => setChannel number (.supplied (text ++ rest))
  | some (number, .file place offset appends) =>
    setChannel number (.file place (offset - text.length) appends)
  | _ => return

/-- The text that a channel has collected. -/
def collectedText (number : Nat) : Sh (List Char) := do
  match (← get).channels[number]? with
  | some (.collected chunks) => return chunks.reverse.flatten
  | _ => return []

/-! ## Complaints and ends -/

/-- Writes a message to the errors. -/
def report (message : String) : Sh Unit := do
  let _ ← write 2 (message ++ "\n").toList

/-- Complains in the name of the script and of the operation that is running. -/
def complain (message : String) : Sh Unit := do
  let s ← get
  let operation := s.operation.elim "" (· ++ ": ")
  report s!"{s.name}: {s.line}: {operation}{message}"

/-- The status of a shell that cannot go on. -/
def brokenStatus : Int := 2

/-- Sets the status. -/
def setStatus (status : Int) : Sh Unit := modify fun s => { s with status }

/-- Complains that the script cannot go on. -/
def abort {α : Type} (message : String) : Sh α := do
  complain message
  setStatus brokenStatus
  throw .broken

/-- Whether something is switched on. -/
def isOn (switch : Char) : Sh Bool := return (← get).switches.contains switch

/-- The variable with a name as it may be changed: it may not be read-only. -/
def changeable (name : String) : Sh Variable := do
  unless isName name do abort s!"{name}: bad variable name"
  let v := ((← get).vars.lookup name).getD ⟨none, ← isOn 'a', false⟩
  if v.isReadonly then abort s!"{name}: is read only"
  return v

/-- Sets a variable. -/
def setVariable (name value : String) : Sh Unit := do
  putVariable name { ← changeable name with value := some value }

/-- Lets time pass. -/
def pass (milliseconds : Nat) : Sh Unit := modify fun s => { s with time := s.time + milliseconds }

/-! ## Parts of a script on their own -/

/-- Takes a step and gives what has stopped it, if anything has. -/
def attempt {α : Type} (step : Sh α) : Sh (Except Stop α) := ExceptT.lift step.run

/-- Goes on with what has come of a step. -/
def resume {α : Type} (result : Except Stop α) : Sh α := ExceptT.mk (pure result)

/-- Takes a step in which some streams may be led elsewhere; they are led back afterwards. -/
def withStreams {α : Type} (touched : List Nat) (step : Sh α) : Sh α := do
  let before ← touched.mapM fun stream => return (stream, ← channelOf? stream)
  let result ← attempt step
  for (stream, number) in before do lead stream number
  resume result

/-- Takes a step with another operation in front of its complaints. -/
def naming {α : Type} (operation : Option String) (step : Sh α) : Sh α := do
  let before := (← get).operation
  modify fun s => { s with operation }
  let result ← attempt step
  modify fun s => { s with operation := before }
  resume result

/-- Takes a step as a shell of its own, which catches no signals but ignores the same ones. What it
does to files and channels stays, and its status becomes the status; everything else is as before.
A signal that is sent to the script ends both. -/
def apart (step : Sh Unit) : Sh Unit := do
  let before ← get
  modify fun s => { s with atExit := none, caught := s.caught.filter (·.2 = ""), pending := [] }
  let result ← attempt step
  modify fun s =>
    { before with
      files := s.files, channels := s.channels, status := s.status, time := s.time
      busyUntil := s.busyUntil }
  match result with
  | .error (.killed signal) => throw (.killed signal)
  | .error .stuck => throw .stuck
  | _ => return

end Sh

end Branchwork.Script
