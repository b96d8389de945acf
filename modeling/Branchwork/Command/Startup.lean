import Branchwork.Host
import Branchwork.Settings.EnvironmentFile

/-!
# The environment that a command starts with

Before a command runs, the variables of one environment file are added to the environment: of the
file that is given or that a variable names, if it is there, or else of one of two files in the
current directory.
-/

namespace Branchwork.Startup

/-- The variable that names an environment file. -/
def fileVariable : String := Settings.variableStart ++ "ENV_FILE"

/-- The environment files of a directory; the first one that is there counts. -/
def localFiles : List String := [".env.local", ".env"]

/-- The path that a text names, with a leading `~` read as the home directory. Other homes are not
known. -/
def expandHome (env : Environment) (p : Path) : Except Fault Path :=
  match p.anchor, p.parts with
  | .here, "~" :: rest =>
    match env.get? "HOME" with
    | some home => .ok ((Path.ofText (if home = "" then "/" else home)).join ⟨.here, rest⟩)
    | none => .error .noHome
  | .here, first :: _ => if first.toList.head? = some '~' then .error .noHome else .ok p
  | _, _ => .ok p

/-- The absolute path of a path that is seen from a directory. -/
def absolute (current : Location) (p : Path) : Path :=
  ⟨.root, Path.collapse (if p.isAbsolute then p.parts else current ++ p.parts)⟩

/-- The file that is asked for: the given one, or else the one that the variable names. -/
def explicit? (env : Environment) (given : Option String) : Option String :=
  (given.filter (· ≠ "")).orElse fun _ => (env.get? fileVariable).filter (· ≠ "")

/-- The file that is asked for, if it is there. -/
def findExplicit (host : Host) (given : Option String) : Action (Option Path) := do
  match explicit? host.environment given with
  | none => return none
  | some text =>
    let p ← Action.ofExcept id (expandHome host.environment (.ofText text))
    if p.parts.any (·.contains '\x00') then throw (.shape .nullByte)
    let p := absolute host.current p
    if (← Action.look host.current p).isSome then return some p
    Action.log .warning s!"Specified env file not found: {p.text}"
    return none

/-- The first of the files of a directory that is there. -/
def findLocal (current : Location) : List String → Action (Option Path)
  | [] => return none
  | name :: rest => do
    let p : Path := ⟨.root, current ++ [name]⟩
    if (← Action.look current p).isSome then return some p
    findLocal current rest

/-- The environment with the variables of a file. A directory holds none, and the environment may
say that no file is read. -/
def loadFile (host : Host) (p : Path) : Action Environment := do
  if EnvironmentFile.isDisabled host.environment then return host.environment
  match ← Action.look host.current p with
  | some (_, .file bytes) =>
    let text ← Action.ofExcept .utf8 (Utf8.decode bytes)
    -- line ends of all kinds read alike
    let text := String.ofList (Text.unifyLineEnds text.toList)
    Action.ofExcept .variable (EnvironmentFile.load host.environment text)
  | _ => return host.environment

/-- The host with the variables of the file that counts, and the path of that file. -/
def load (host : Host) (given : Option String) : Action (Host × Option Path) := do
  let chosen ← match ← findExplicit host given with
    | some p => pure (some p)
    | none => findLocal host.current localFiles
  match chosen with
  | none => return (host, none)
  | some p => return ({ host with environment := ← loadFile host p }, some p)

end Branchwork.Startup
