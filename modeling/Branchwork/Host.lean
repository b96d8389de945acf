import Branchwork.Script.Run
import Branchwork.World

/-!
# Hosts

What a run finds on the machine that it runs on and does not change: the environment, the current
directory, and the programs that can be started. A host without programs of its own starts the
shell, the utilities of the shell, and an interpreter that only finds out that a script is missing.
-/

namespace Branchwork

/-- A program to be started: its name and arguments, its variables, and where it runs. -/
structure Launch where
  program : String
  arguments : List String
  environment : Environment
  directory : Path

/-- Why a text cannot be handed to a program: it holds the character that ends all texts there, or
halves of characters. -/
inductive Launch.Obstacle where
  | null
  | halves (found : Text.LoneHalves)
deriving DecidableEq, Repr

/-- What stands in the way of handing a text to a program. -/
def Launch.obstacle? (text : String) : Option Launch.Obstacle :=
  ((Text.unnamable? text).map .halves).or (if text.contains '\x00' then some .null else none)

/-- The first thing that stands in the way of starting a program. -/
def Launch.firstObstacle? (launch : Launch) : Option Launch.Obstacle :=
  ((launch.program :: launch.arguments) ++ [launch.directory.text]).findSome? Launch.obstacle?

/-- What comes of starting a program: its result, and the files behind it. -/
abbrev Launched := Except FileSystem.Fault (Script.Result × FileSystem)

/-- The machine around a run. -/
structure Host where
  environment : Environment
  current : Location
  start : Launch → FileSystem → Launched

namespace Host

/-- The paths and names of the shell. -/
def shells : List String :=
  ["sh", "dash", "bash", "/bin/sh", "/bin/dash", "/bin/bash", "/usr/bin/sh", "/usr/bin/dash",
    "/usr/bin/bash"]

/-- The names of the interpreter. -/
def interpreters : List String :=
  ["python", "python3", "/usr/local/bin/python", "/usr/local/bin/python3"]

/-- The absolute text of a path seen from a directory. -/
def absolute (directory : Location) (p : String) : String :=
  let p := Path.ofText p
  if p.isAbsolute then p.text else "/" ++ "/".intercalate (Path.collapse (directory ++ p.parts))

/-- Runs the shell with arguments: the first one names the script. -/
def runShell (launch : Launch) (directory : Location) (files : FileSystem) :
    Script.Result × FileSystem :=
  match launch.arguments with
  | [] => (.silent 0, files)
  | script :: arguments =>
    match files.readFile directory (.ofText script) with
    | .error fault =>
      let reason := match fault.reason with
        | .missing => "No such file"
        | reason => reason.text
      (.complaint 2 s!"{launch.program}: 0: cannot open {script}: {reason}", files)
    | .ok bytes =>
      let scene : Script.Scene := ⟨script, arguments, launch.environment, files, directory⟩
      scene.runScript (Script.ofBytes bytes)

/-- Runs the interpreter with arguments: it complains about a script that is not there. One that is
there does nothing. -/
def runInterpreter (launch : Launch) (directory : Location) (files : FileSystem) :
    Script.Result :=
  match launch.arguments with
  | [] => .silent 0
  | script :: _ =>
    match files.stat directory (.ofText script) with
    | .ok _ => .silent 0
    | .error reason =>
      let path := absolute directory script
      let fault : FileSystem.Fault := ⟨reason, path⟩
      .complaint 2 s!"{launch.program}: can't open file {quoteText path}: {fault.summary}"

/-- The directories that are searched for a program with a name. -/
def searchPath (environment : Environment) : List String :=
  ((environment.get? "PATH").getD "/bin:/usr/bin").splitOn ":"

/-- The directories that the programs lie in. -/
def programPlaces : List String := ["/bin", "/usr/bin", "/usr/local/bin"]

/-- Whether a program is looked for where it is. -/
def isSearched (launch : Launch) : Bool :=
  launch.program.contains '/' || (searchPath launch.environment).any fun place =>
    programPlaces.contains (Path.ofText place).text

/-- Why a program that is not known cannot be started. A file with its name is no program. -/
def refusal (launch : Launch) (directory : Location) (files : FileSystem) : FileSystem.Fault :=
  let program := launch.program
  if program = "" then ⟨.denied, program⟩
  else if program.contains '/' then
    match files.stat directory (.ofText program) with
    | .ok _ => ⟨.denied, program⟩
    | .error reason => ⟨reason, program⟩
  else
    let isThere (place : String) : Bool :=
      (files.stat directory ((Path.ofText place).join (.ofText program))).toBool
    if (searchPath launch.environment).any isThere then ⟨.denied, program⟩ else ⟨.missing, program⟩

/-- Starts a program of the host without programs of its own. -/
def startPlain (current : Location) (launch : Launch) (files : FileSystem) : Launched :=
  match files.stat current launch.directory with
  | .error reason => .error ⟨reason, launch.directory.text⟩
  | .ok (_, .file _) => .error ⟨.notDirectory, launch.directory.text⟩
  | .ok (directory, .directory) =>
    if !isSearched launch then .error (refusal launch directory files)
    else if shells.contains launch.program then .ok (runShell launch directory files)
    else if interpreters.contains launch.program then
      .ok (runInterpreter launch directory files, files)
    else
      let scene : Script.Scene :=
        ⟨launch.program, launch.arguments, launch.environment, files, directory⟩
      match scene.runProgram? with
      | some result => .ok result
      | none => .error (refusal launch directory files)

/-- The host without programs of its own. -/
def plain (environment : Environment) (current : Location) : Host :=
  ⟨environment, current, startPlain current⟩

/-- The settings that the environment of a host gives. -/
def settings (host : Host) : Settings :=
  .ofEnvironment host.environment ⟨.root, host.current⟩

end Host

end Branchwork
