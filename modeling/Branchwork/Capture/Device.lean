import Branchwork.Host

/-!
# Capturing pages

A device captures a page, with or without its styles, as a value. The device of a run starts a
program of its own, which writes the page as JSON.
-/

namespace Branchwork

/-- What captures the page with an address, with or without its styles. -/
abbrev Device := Value → Bool → Action Value

namespace Capture

/-- The name of the script that captures a page. -/
def scriptName : String := "save.py"

/-- The command that captures a page. -/
def command (s : Settings) (address : String) (styled : Bool) : List String :=
  [s.python, ((s.resolve s.telemetryDir).join (.ofText scriptName)).text,
    s!"--browser={s.saveBrowser}"] ++ (if styled then [] else ["--no-style"]) ++ ["--", address]

/-- The path of the capture tools in a checkout of the browser. -/
def toolsPath (checkout : String) : String :=
  ((Path.ofText checkout).join (.ofText "tools/telemetry")).text

/-- The variable that tells where the tools are. -/
def searchVariable : String := "PYTHONPATH"

/-- The variables of the program that captures pages. -/
def environment (s : Settings) (env : Environment) : Environment :=
  match s.chromium.filter (· ≠ "") with
  | none => env
  | some checkout =>
    let existing := (env.get? searchVariable).filter (· ≠ "")
    env.put searchVariable ((existing.elim "" (· ++ ":")) ++ toolsPath checkout)

/-- Whether a program takes too long; one that never ends does. -/
def isLate (limit : Binary64) (milliseconds : Option Nat) : Bool :=
  match limit.signedRatio?, milliseconds with
  | some (n, d), some time => n ≤ 0 || n * 1000 ≤ (time : Int) * d
  | none, some _ => limit.isNonPositive
  | _, none => true

/-- What a program that has ended has to say: its output, if it ended well. -/
def outputOf (s : Settings) (result : Script.Result) : Action String := do
  if isLate s.telemetryTimeout result.milliseconds then
    throw (.capture (.timedOut s.telemetryTimeout))
  -- errors are for people to read, so bytes that are no text do not matter there
  let errors := Utf8.decodeLossy result.errors
  if errors ≠ "" then Action.log .info s!"stderr: {trimText errors}"
  if result.status ≠ 0 then throw (.capture (.exited scriptName result.status errors))
  Action.ofExcept .utf8 (Utf8.decode result.output)

/-- The value that the output of a program stands for. -/
def valueOf (address output : String) : Except Fault Value :=
  match Json.read output with
  | .ok v => .ok v
  | .error error =>
    match error.problem with
    | .tooManyDigits _ => .error (.json error)
    | _ => .error (.capture (.badJson address error))

/-- The device that starts a program. An address that is no text cannot be handed to a program. -/
def device (host : Host) (s : Settings) : Device := fun address styled => do
  match address with
  | .text address =>
    let words := command s address styled
    let launch : Launch :=
      ⟨s.python, words.drop 1, (environment s host.environment).handed, s.workDir⟩
    match launch.firstObstacle? with
    | some .null => throw (.shape .nullByte)
    | some (.halves found) => throw (.halves found)
    | none => pure ()
    match host.start launch (← Action.files) with
    | .error reason => throw (.capture (.notStarted s.python reason))
    | .ok (result, files) =>
      -- what the program wrote stays, however it ended
      Action.setFiles files
      let output ← outputOf s result
      Action.ofExcept id (valueOf address output)
  | v => throw (.shape (.notWord ((command s "" styled).length - 1) v.qualifiedKind))

end Capture

end Branchwork
