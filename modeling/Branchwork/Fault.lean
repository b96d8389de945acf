import Branchwork.Capture.Failure
import Branchwork.Console.Markup
import Branchwork.Experiment.Basic
import Branchwork.Experiment.Leaf
import Branchwork.FileSystem.Glob
import Branchwork.Settings.EnvironmentFile
import Branchwork.Settings.Flags
import Branchwork.Step.Shape
import Branchwork.Template.Render

/-!
# Faults

Everything that can stop the preparation of an experiment, a step of a pipeline or a command, each
with the word for its kind and its text.
-/

namespace Branchwork

/-- A cause of failure. -/
inductive Fault where
  | experiment (problem : Experiment.Problem)
  | noExperiment (path : String)
  | cycle (cycle : Experiment.Cycle)
  | unknownStage (name : String) (known : List String)
  | settings (faults : List Settings.Fault)
  | namelessFlag
  | variable (problem : EnvironmentFile.Problem)
  | yaml (problem : Yaml.Problem)
  | json (error : Json.Error)
  | utf8 (fault : Utf8.Fault)
  | files (fault : FileSystem.Fault)
  | glob (problem : FileSystem.GlobProblem)
  | template (problem : Template.Problem)
  | templates (problems : List (String × Template.Problem))
  | noTemplates (path : String)
  | capture (failure : Capture.Failure)
  | shape (problem : ShapeProblem)
  | sameName (first second name : String)
  | noEvents
  | markup (problem : Markup.Problem)
  | badFlag (written : String)
  | noHome
  | overlong
  | halves (found : Text.LoneHalves)

namespace Fault

/-- The word for the kind of a cause. -/
def kind : Fault → String
  | .experiment problem => problem.kind
  | .noExperiment _ => "FileNotFoundError"
  | .cycle _ => "CycleDetected"
  | .unknownStage _ _ => "StageNotFound"
  | .settings _ => "ValidationError"
  | .namelessFlag => "TypeError"
  | .variable _ => "ValueError"
  | .yaml problem => problem.kind
  | .json error =>
    match error.problem with
    | .tooManyDigits _ => "ValueError"
    | _ => "JSONDecodeError"
  | .utf8 _ => "UnicodeDecodeError"
  | .files fault => fault.reason.kind
  | .glob problem => problem.kind
  | .template problem => problem.kind
  | .templates _ => "TemplateError"
  | .noTemplates _ => "FileNotFoundError"
  | .capture _ => "TelemetryError"
  | .shape problem => problem.kind
  | .sameName _ _ _ => "ValueError"
  | .noEvents => "ValueError"
  | .markup problem => problem.kind
  | .badFlag _ => "BadParameter"
  | .noHome => "RuntimeError"
  | .overlong => "ValueError"
  | .halves _ => "UnicodeEncodeError"

/-- The text of bytes that are no text. -/
def utf8Message (fault : Utf8.Fault) : String :=
  let place :=
    if fault.length = 1 then
      s!"byte 0x{String.ofList (Text.hexDigits 2 fault.first.toNat)} in position {fault.position}"
    else s!"bytes in position {fault.position}-{fault.position + fault.length - 1}"
  s!"'utf-8' codec can't decode {place}: {fault.reason.message}"

/-- The longest beginning of a text that takes at most the given count of bytes. -/
def takeBytes : (count : Nat) → List Char → List Char
  | _, [] => []
  | count, c :: rest => if c.utf8Size ≤ count then c :: takeBytes (count - c.utf8Size) rest else []

/-- A value as a report shows it: a text of more than fifty bytes keeps the characters in its first
25 and in its last 24 bytes. -/
def shortened (text : String) : String :=
  let chars := text.toList
  if text.utf8ByteSize ≤ 50 then text
  else
    let start := takeBytes 25 chars
    let ending := (takeBytes 24 chars.reverse).reverse
    String.ofList start ++ "..." ++ String.ofList ending

/-- A wrong option as a report shows it. -/
def shownOption (v : Value) : String :=
  if v.isOverlong then s!"<unprintable {v.kind} object>" else shortened v.display

/-- The report of the options that are wrong. -/
def settingsMessage (faults : List Settings.Fault) : String :=
  let plural := if faults.length = 1 then "" else "s"
  let lines := faults.flatMap fun f =>
    let given := s!"input_value={shownOption f.given}, input_type={f.given.kind}"
    [f.field, s!"  {f.problem.message} [type={f.problem.name}, {given}]"]
  "\n".intercalate (s!"{faults.length} validation error{plural} for RunConfig" :: lines)

/-- A cause in words. -/
def message : Fault → String
  | .experiment problem => problem.message
  | .noExperiment path => s!"Experiment file not found: {path}"
  | .cycle c => c.message
  | .unknownStage name known =>
    let names := ", ".intercalate (known.mergeSort fun a b => a ≤ b)
    s!"No stage registered with name: {name}" ++
      if known.isEmpty then "" else s!" (known stages: {names})"
  | .settings faults => settingsMessage faults
  | .namelessFlag => "keywords must be strings"
  | .variable problem => problem.message
  | .yaml problem => problem.message
  | .json error => error.message
  | .utf8 fault => utf8Message fault
  | .files fault => fault.message
  | .glob problem => problem.message
  | .template problem => problem.message
  | .templates problems =>
    "; ".intercalate (problems.map fun (stem, problem) => s!"{stem}: {problem.message}")
  | .noTemplates path => s!"Template directory not found: {path}"
  | .capture failure => failure.message
  | .shape problem => problem.message
  | .sameName first second name => s!"Keys '{first}' and '{second}' both map to '{name}'"
  | .noEvents => "tracePIDSplitter expects a list of trace events"
  | .markup problem => problem.message
  | .badFlag written => s!"expected key=value, got '{written}'"
  | .noHome => "Could not determine home directory."
  | .overlong => DigitLimit.writeMessage
  | .halves found => found.message

end Fault

end Branchwork
