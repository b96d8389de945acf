import Branchwork.Environment
import Branchwork.Number.Literal
import Branchwork.Text.Half
import Branchwork.Text.Utf8
import Branchwork.Value.Display

/-!
# Settings

The settings of a run: seven options that are always there, and further options that an experiment
or the command line adds. Options are given by name as values; those of the seven are checked, and
all that are wrong are reported together. What is not given comes from the environment or has a
default.

Main statement: `ofOptions_dump`, settings are their own options, all of them given.
-/

namespace Branchwork

/-- The settings of a run. The names of the options that were given are kept. -/
structure Settings where
  workDir : Path
  chromium : Option String
  saveBrowser : String
  python : String
  telemetryDir : Path
  telemetryTimeout : Binary64
  templateDir : Path
  extras : List (String × Value)
  given : List String

namespace Settings

/-- What is wrong with the value of an option. -/
inductive Problem where
  | notText
  | notUnicode
  | notPath
  | notNumber
  | notNumberText
deriving DecidableEq, Repr

/-- An option with a wrong value. -/
structure Fault where
  field : String
  problem : Problem
  given : Value

/-- The word for a problem. -/
def Problem.name : Problem → String
  | .notText => "string_type"
  | .notUnicode => "string_unicode"
  | .notPath => "path_type"
  | .notNumber => "float_type"
  | .notNumberText => "float_parsing"

/-- A problem in words. -/
def Problem.message : Problem → String
  | .notText => "Input should be a valid string"
  | .notUnicode => "Input should be a valid string, unable to parse raw data as a unicode string"
  | .notPath => "Input is not a valid path for <class 'pathlib.Path'>"
  | .notNumber => "Input should be a valid number"
  | .notNumberText => "Input should be a valid number, unable to parse string as a number"

/-! ## Reading options -/

/-- An option that is a text. Bytes that spell a text with halves spell none. -/
def readText : Value → Except Problem String
  | .text s => if Text.isWhole s.toList then .ok s else .error .notUnicode
  | .bytes b =>
    match Utf8.decode b with
    | .ok s => if Text.isWhole s.toList then .ok s else .error .notUnicode
    | .error _ => .error .notUnicode
  | _ => .error .notText

/-- An option that is a text or null. -/
def readOptionalText : Value → Except Problem (Option String)
  | .null => .ok none
  | v => (readText v).map some

/-- An option that is a path. -/
def readPath : Value → Except Problem Path
  | .path p => .ok p
  | .text s => if Text.isWhole s.toList then .ok (.ofText s) else .error .notPath
  | .bytes b => (Utf8.decode b).map Path.ofText |>.mapError fun _ => .notPath
  | _ => .error .notPath

/-- The number that a text stands for. -/
def numberOf (s : String) : Except Problem Binary64 :=
  (Literal.optionFloat? s.toList).elim (.error .notNumberText) .ok

/-- An option that is a number. An integer beyond all numbers is none. -/
def readNumber : Value → Except Problem Binary64
  | .float x => .ok x
  | .int i =>
    match Binary64.ofInt i with
    | .infinite _ => .error .notNumber
    | x => .ok x
  | .bool b => .ok (.ofInt (if b then 1 else 0))
  | .text s => if Text.isWhole s.toList then numberOf s else .error .notUnicode
  | .bytes b =>
    match Utf8.decode b with
    | .ok s => numberOf s
    | .error _ => .error .notNumberText
  | _ => .error .notNumber

/-- The value of an option among those given, or else its default. -/
def readField {α : Type} (options : List (String × Value)) (name : String) (default : α)
    (read : Value → Except Problem α) : Except Fault α :=
  match options.lookup name with
  | none => .ok default
  | some v => (read v).mapError fun problem => ⟨name, problem, v⟩

/-- The fault of an option, if it has one. -/
def fault? {α : Type} : Except Fault α → Option Fault
  | .error fault => some fault
  | .ok _ => none

/-- The names of the seven options, in order. -/
def fieldNames : List String :=
  ["work_dir", "chromium", "save_browser", "python", "telemetry_dir", "telemetry_timeout",
    "template_dir"]

/-- The settings with the given options; what is not given is taken from `defaults`. -/
def ofOptions (defaults : Settings) (options : List (String × Value)) :
    Except (List Fault) Settings :=
  let workDir := readField options "work_dir" defaults.workDir readPath
  let chromium := readField options "chromium" defaults.chromium readOptionalText
  let saveBrowser := readField options "save_browser" defaults.saveBrowser readText
  let python := readField options "python" defaults.python readText
  let telemetryDir := readField options "telemetry_dir" defaults.telemetryDir readPath
  let timeout := readField options "telemetry_timeout" defaults.telemetryTimeout readNumber
  let templateDir := readField options "template_dir" defaults.templateDir readPath
  let extras := options.filter fun (name, _) => !fieldNames.contains name
  let given := options.map (·.1)
  match workDir, chromium, saveBrowser, python, telemetryDir, timeout, templateDir with
  | .ok a, .ok b, .ok c, .ok d, .ok e, .ok f, .ok g => .ok ⟨a, b, c, d, e, f, g, extras, given⟩
  | a, b, c, d, e, f, g =>
    .error ([fault? a, fault? b, fault? c, fault? d, fault? e, fault? f, fault? g].filterMap id)

/-- The beginning of the names of the variables that give defaults. -/
def variableStart : String := "TREEFLOW_"

/-- The settings that an environment gives, seen from a current directory. -/
def ofEnvironment (env : Environment) (current : Path) : Settings :=
  let given (name default : String) := (env.get? (variableStart ++ name)).getD default
  { workDir := current
    chromium := env.get? (variableStart ++ "CHROMIUM")
    saveBrowser := given "SAVE_BROWSER" "system"
    python := given "PYTHON" "python"
    telemetryDir := .ofText (given "TELEMETRY_DIR" "telemetry")
    telemetryTimeout := .ofInt 300
    templateDir := .ofText (given "TEMPLATE_DIR" "templates")
    extras := []
    given := [] }

/-! ## Settings as options -/

/-- The seven options with their values. -/
def fields (s : Settings) : List (String × Value) :=
  [("work_dir", .path s.workDir), ("chromium", s.chromium.elim .null .text),
    ("save_browser", .text s.saveBrowser), ("python", .text s.python),
    ("telemetry_dir", .path s.telemetryDir), ("telemetry_timeout", .float s.telemetryTimeout),
    ("template_dir", .path s.templateDir)]

/-- All options with their values: the seven, then the further ones. -/
def dump (s : Settings) : List (String × Value) := s.fields ++ s.extras

theorem ofOptions_dump (defaults s : Settings)
    (extras : ∀ entry ∈ s.extras, entry.1 ∉ fieldNames)
    (whole : ∀ text ∈ s.chromium.toList ++ [s.saveBrowser, s.python],
      Text.isWhole text.toList) :
    ofOptions defaults s.dump = .ok { s with given := s.dump.map (·.1) } := by
  have keep : s.extras.filter (fun entry => !fieldNames.contains entry.1) = s.extras :=
    List.filter_eq_self.2 fun entry h => by simpa using extras entry h
  obtain ⟨a, b, c, d, e, f, g, more, given⟩ := s
  have dumped : List.filter (fun entry => !fieldNames.contains entry.1)
      (Settings.dump ⟨a, b, c, d, e, f, g, more, given⟩) = more := by
    simp only [dump, fields, List.filter_append, keep]
    simp [fieldNames]
  have browser : readText (.text c) = .ok c := if_pos (whole c (by simp))
  have program : readText (.text d) = .ok d := if_pos (whole d (by simp))
  have kept {α ε ε' : Type} (f : ε → ε') (x : α) : (Except.ok x).mapError f = .ok x := rfl
  simp only [ofOptions, dumped]
  cases b with
  | none =>
    simp [readField, dump, fields, List.lookup_cons, browser, program, readPath, readNumber,
      readOptionalText, kept]
  | some b =>
    have checkout : readText (.text b) = .ok b := if_pos (whole b (by simp))
    have branch : readOptionalText (.text b) = .ok (some b) := by
      simp [readOptionalText, checkout, Except.map]
    simp [readField, dump, fields, List.lookup_cons, branch, browser, program, readPath,
      readNumber, kept]

/-- The settings as one text. -/
def display (s : Settings) : String :=
  let options := s.dump.map fun (name, v) => s!"{name}={v.display}"
  "RunConfig(" ++ ", ".intercalate options ++ ")"

/-- A path as seen from the working directory. -/
def resolve (s : Settings) (p : Path) : Path := s.workDir.join p

end Settings

end Branchwork
