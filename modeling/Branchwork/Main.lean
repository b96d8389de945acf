import Branchwork.Command.Perform
import Branchwork.FileSystem.Snapshot

/-!
# The program

The program works on a snapshot of its working directory. It reads the snapshot from the standard
input as a JSON object of paths and contents, performs the command line that it is given, and
writes the new snapshot to the standard output. What the command shows goes to the standard error.
-/

namespace Branchwork

/-- The variables that matter to a command. -/
def environmentNames : List String :=
  ["HOME", "PATH", Capture.searchVariable, Startup.fileVariable] ++
    ["CHROMIUM", "SAVE_BROWSER", "PYTHON", "TELEMETRY_DIR", "TEMPLATE_DIR"].map
      (Settings.variableStart ++ ·)

/-- The directory that a snapshot is put into. -/
def snapshotPlace : Location := ["work"]

/-- The files of a snapshot, written as JSON. -/
def filesOf (text : String) : Except String FileSystem := do
  let snapshot ← (Json.read text).mapError (·.message)
  let entries ← match snapshot with
    | .map entries => .ok entries
    | v => .error s!"a snapshot is an object, not {v.kind}"
  let files := FileSystem.empty.put snapshotPlace .directory
  (files.restore snapshotPlace entries).mapError (·.message)

/-- The snapshot of the files, written as JSON. -/
def snapshotText (files : FileSystem) : String :=
  match Json.write (.map (files.snapshot snapshotPlace)) with
  | .ok text => text
  | .error kind => kind

/-- Performs a command line on a snapshot: the new snapshot, what is shown, and the status. -/
def performOn (environment : Environment) (words : List String) (snapshot : String) :
    String × String × Nat :=
  match filesOf snapshot with
  | .error message => (snapshot, s!"Error: {message}\n", Command.usageStatus)
  | .ok files =>
    let host := Host.plain environment snapshotPlace
    let (ending, world) := (Command.performAll host words).run (World.start files)
    let text := snapshotText world.files
    match ending with
    | .exit status => (text, world.shown, status)
    | .stopped fault => (text, world.shown ++ s!"{fault.kind}: {fault.message}\n", 1)

end Branchwork

/-- The variables of the environment that are set. -/
def readEnvironment : List String → IO Branchwork.Environment
  | [] => return []
  | name :: rest => do
    let value ← IO.getEnv name
    let more ← readEnvironment rest
    return value.elim more fun value => (name, value) :: more

/-- All text of a stream. -/
partial def readAll (input : IO.FS.Stream) (before : String) : IO String := do
  let line ← input.getLine
  if line.isEmpty then return before else readAll input (before ++ line)

/-- Performs the command line on the snapshot in the standard input. -/
def main (arguments : List String) : IO UInt32 := do
  let environment ← readEnvironment Branchwork.environmentNames
  let snapshot ← readAll (← IO.getStdin) ""
  let (snapshot, shown, status) := Branchwork.performOn environment arguments snapshot
  IO.eprint shown
  IO.println snapshot
  return status.toUInt32
