import Branchwork.Capture.Device
import Branchwork.Json.Writer
import Branchwork.Stage.Basic

/-!
# What the stages do

Each stage turns a value into another one, by a file, the console, a capture or JSON, or by the
value alone.
-/

namespace Branchwork

/-- What a stage works with: the settings, the host, and the device of the run, if it has one. -/
structure Stage.Scope where
  settings : Settings
  host : Host
  device : Option Device

namespace Stage

/-- The device of a run, or else one that starts the program that the settings name. -/
def Scope.capture (scope : Scope) : Device :=
  scope.device.getD (Capture.device scope.host scope.settings)

/-- The path that a value names, seen from the working directory. -/
def Scope.path (scope : Scope) : Value → Except ShapeProblem Path
  | .text s => .ok (scope.settings.resolve (.ofText s))
  | .path p => .ok (scope.settings.resolve p)
  | v => .error (.notPath v.kind)

/-- Whether a name holds the character that no name may hold. -/
def hasNull (names : List String) : Bool := names.any (·.toList.contains '\x00')

/-- Refuses a path that no file can have. -/
def checkPath (p : Path) : Action Unit := do
  if let some found := Text.unnamable? p.text then throw (.halves found)
  if hasNull p.parts then throw (.shape .nullByte)

/-- Reads a file as text. Every line end reads as a line feed. -/
def Scope.readText (scope : Scope) (p : Path) : Action String := do
  checkPath p
  let bytes ← Action.ofExcept .files ((← Action.files).readFile scope.host.current p)
  let text ← Action.ofExcept .utf8 (Utf8.decode bytes)
  return String.ofList (Text.unifyLineEnds text.toList)

/-- A value as JSON. -/
def toJson (v : Value) : Action String := Action.ofExcept (.shape ∘ .notJsonKey) (Json.write v)

/-- The value that JSON stands for. -/
def ofJson (text : String) : Action Value := Action.ofExcept .json (Json.read text)

/-- The text of a value in a file or on the console: a text stands for itself, everything else is
written as JSON. -/
def serialize : Value → Action String
  | .text s => return s
  | v => toJson v

/-! ## Files -/

/-- Makes the directory that a path names and those that it lies in. What was made before a failure
stays. -/
def Scope.ensureDirectories (scope : Scope) (p : Path) : Action Unit := do
  let (fault?, files) := (← Action.files).ensureDirectories scope.host.current p
  Action.setFiles files
  if let some fault := fault? then throw (.files fault)

/-- Writes a file. -/
def Scope.writeBytes (scope : Scope) (p : Path) (bytes : List UInt8) : Action Unit := do
  let files ← Action.files
  Action.setFiles (← Action.ofExcept .files (files.writeFile scope.host.current p bytes))

/-- Makes an empty file under a name, with the directories on the way to it, and gives its path. -/
def Scope.openFile (scope : Scope) (name : Value) : Action Path := do
  let p ← Action.ofShape (scope.path name)
  -- the directories are made before the name itself is looked at
  checkPath p.parent
  scope.ensureDirectories p.parent
  checkPath p
  scope.writeBytes p []
  return p

/-- The text of a value that a file can hold. -/
def storedText (data : Value) : Action String := do
  let text ← serialize data
  if let some found := Text.unstorable? text then throw (.halves found)
  return text

/-- Writes a value to the file under a name. -/
def Scope.store (scope : Scope) (name data : Value) : Action Value := do
  let p ← scope.openFile name
  -- a value that cannot be written leaves an empty file behind
  let text ← storedText data
  scope.writeBytes p (Utf8.encode text)
  Action.log .info s!"written results into \"{name.plain}\"."
  return .text name.plain

/-- Writes the second member of a pair to the file that the first one names. -/
def runToFile (scope : Scope) (v : Value) : Action Value := do
  match v with
  | .tuple [name, data] | .list [name, data] => scope.store name data
  | v => throw (.shape (.notPair v.kind))

/-! ## Console -/

/-- Shows the entries of a mapping one after the other, each under its key. -/
def showEntries : Mapping → Action Unit
  | [] => return
  | (key, v) :: rest => do
    match key with
    | .null => pure ()
    | key => Action.print s!"{key.plain}:"
    Action.print (← serialize v)
    showEntries rest

/-- Shows a value; a mapping entry by entry. -/
def runConsole : Value → Action Value
  | .map entries => do
    showEntries entries
    return .null
  | v => do
    Action.print (← serialize v)
    return .null

/-! ## Traces -/

/-- The key of the events in a trace. -/
def eventsKey : String := "traceEvents"

/-- The events of a trace: a list, or an object that holds a list. -/
def events? : Value → Option (List Value)
  | .list events => some events
  | .map entries =>
    match Mapping.find? entries eventsKey with
    | some (.list events) => some events
    | _ => none
  | _ => none

/-- The process that an event belongs to. -/
def processOf : Value → String
  | .map entries =>
    match Mapping.find? entries "pid" with
    | none | some .null => "unknown"
    | some pid => pid.plain
  | _ => "unknown"

/-- Adds an event to the group of a process. -/
def addEvent (process : String) (event : Value) :
    List (String × List Value) → List (String × List Value)
  | [] => [(process, [event])]
  | (p, events) :: rest =>
    if p = process then (p, events ++ [event]) :: rest
    else (p, events) :: addEvent process event rest

/-- The events of each process, in order of its first event. -/
def groupEvents (events : List Value) : List (String × List Value) :=
  events.foldl (fun groups event => addEvent (processOf event) event groups) []

/-- Splits a trace into one trace for each process. -/
def runSplitter (v : Value) : Action Value := do
  match events? v with
  | none => throw .noEvents
  | some events =>
    return .map ((groupEvents events).map fun (process, events) =>
      (.text process, .map [(.text eventsKey, .list events)]))

/-! ## Templates -/

/-- The names of the files in a directory, in ascending order. -/
def fileNames (files : FileSystem) (place : Location) : List String :=
  ((files.children place).filter fun (name : String) =>
    match files.get? (place ++ [name]) with
    | some (.file _) => true
    | _ => false).mergeSort fun a b => a ≤ b

/-- Puts a template under its stem; of two files with one stem the later one counts. -/
def putTemplate (stem text : String) : List (String × String) → List (String × String)
  | [] => [(stem, text)]
  | (s, t) :: rest => if s = stem then (s, text) :: rest else (s, t) :: putTemplate stem text rest

/-- Reads templates, put in order behind those in `read`. -/
def Scope.readTemplates (scope : Scope) (directory : Path) (read : List (String × String)) :
    List String → Action (List (String × String))
  | [] => return read
  | name :: rest => do
    let p := { directory with parts := directory.parts ++ [name] }
    scope.readTemplates directory (putTemplate p.stem (← scope.readText p) read) rest

/-- Renders templates in order. -/
def renderAll (settings : Settings) (v : Value) :
    List (String × String) → Except Template.Problem Mapping
  | [] => .ok []
  | (stem, text) :: rest =>
    match Template.render (some settings) v text with
    | .error problem => .error problem
    | .ok rendered =>
      (renderAll settings v rest).map fun more => (.text stem, .text rendered) :: more

/-- Renders every template of the template directory for a value. Nothing is rendered unless all
options of all templates are there. -/
def runTemplate (scope : Scope) (v : Value) : Action Value := do
  let directory := scope.settings.resolve scope.settings.templateDir
  match ← Action.look scope.host.current directory with
  | some (place, .directory) =>
    let templates ← scope.readTemplates directory [] (fileNames (← Action.files) place)
    -- all options are checked before the first template is rendered
    let problems := templates.flatMap fun (stem, text) =>
      (Template.validate (some scope.settings) text).map fun problem => (stem, problem)
    unless problems.isEmpty do throw (.templates problems)
    return .map (← Action.ofExcept .template (renderAll scope.settings v templates))
  | _ => throw (.noTemplates directory.text)

/-! ## All stages -/

/-- Runs a stage on a value. -/
def run (scope : Scope) (v : Value) : Stage → Action Value
  | .taggedConsoleOutput => runConsole v
  | .fileToString => do
    let p ← Action.ofShape (scope.path v)
    return .text (← scope.readText p)
  | .fileToJson => do
    let p ← Action.ofShape (scope.path v)
    ofJson (← scope.readText p)
  | .toFile => runToFile scope v
  | .telemetrySave => scope.capture v true
  | .telemetrySaveNoStyle => scope.capture v false
  | .nullFilter => return v
  | .toJsonString => return .text (← toJson v)
  | .fromJsonString =>
    match v with
    | .text s => ofJson s
    | v => throw (.shape (.notJson v.kind))
  | .tracePidSplitter => runSplitter v
  | .template => runTemplate scope v

end Stage

end Branchwork
