import Branchwork.Command.Arguments
import Branchwork.FileSystem.Basic

/-!
# Requests

The command line names one of four commands, with its options and operands in front of and behind
the name. A command line that asks for nothing that can be done is answered by a usage message.

The options in front of the name are read first, then the name is looked up; the words behind it
are read when the environment is complete.
-/

namespace Branchwork.Command

/-- A command. -/
inductive Verb where
  | run
  | showTree
  | stages
  | validate
deriving DecidableEq, Repr

/-- The commands, in the order of their names. -/
def Verb.all : List Verb := [.run, .showTree, .stages, .validate]

/-- The name of a command. -/
def Verb.name : Verb → String
  | .run => "run"
  | .showTree => "show"
  | .stages => "stages"
  | .validate => "validate"

/-- What a command does. -/
def Verb.about : Verb → String
  | .run => "Run an experiment."
  | .showTree => "Show the pipelines an experiment flattens into."
  | .stages => "List registered stage names."
  | .validate => "Parse an experiment and build its pipelines without running them."

/-- Whether a command works on an experiment. -/
def Verb.takesExperiment (v : Verb) : Bool := v ≠ .stages

/-! ## Options -/

/-- The option that asks for help. -/
def helpSwitch : Switch := ⟨"--help", none, none, "Show this message and exit."⟩

/-- The option that asks for the version. -/
def versionSwitch : Switch := ⟨"--version", none, none, "Show the version and exit."⟩

/-- The option that names an environment file. -/
def environmentSwitch : Switch :=
  ⟨"--env-file", none, some "PATH", "Environment file to load"⟩

/-- The option that names the working directory. -/
def directorySwitch : Switch :=
  ⟨"--work-dir", some 'C', some "DIRECTORY",
    "Directory inputs are read from and outputs written to"⟩

/-- The option that overrides another option. -/
def flagSwitch : Switch :=
  ⟨"--flag", some 'f', some "TEXT", "Option override as key=value (repeatable)"⟩

/-- The option that makes failed pipelines count. -/
def strictSwitch : Switch :=
  ⟨"--strict", none, none, "Exit with status 1 if any pipeline failed"⟩

/-- The option that shows every pipeline. -/
def verboseSwitch : Switch := ⟨"--verbose", some 'v', none, "Show detailed output"⟩

/-- The options in front of the name of a command. -/
def leadingSwitches : List Switch := [versionSwitch, environmentSwitch, helpSwitch]

/-- The options of a command. -/
def Verb.switches : Verb → List Switch
  | .run => [directorySwitch, flagSwitch, strictSwitch, verboseSwitch, helpSwitch]
  | .validate => [directorySwitch, helpSwitch]
  | .showTree | .stages => [helpSwitch]

/-! ## Usage -/

/-- Why a command line is refused. -/
inductive UsageProblem where
  | word (problem : WordProblem)
  | noVerb
  | unknownVerb (name : String) (similar : List String)
  | noExperiment
  | missingPath (text : String)
  | missingDirectory (text : String)
  | notDirectory (text : String)
  | extraOperands (operands : List String)
  | badFlag (message : String)
  | nullByte
deriving DecidableEq, Repr

/-- A refused command line: the command, as far as it is known, and the reason. -/
structure UsageFault where
  verb : Option Verb
  problem : UsageProblem
deriving DecidableEq, Repr

/-- The texts that may be meant, as a hint. -/
def hintOf : List String → String
  | [] => ""
  | [one] => s!" Did you mean {quoteText one}?"
  | several =>
    let quoted := ", ".intercalate (several.map quoteText)
    s!" (Did you mean one of: {quoted}?)"

/-- What is wrong with words, in words. -/
def WordProblem.message : WordProblem → String
  | .unknownOption name similar =>
    s!"No such option {quoteText name}." ++ hintOf similar
  | .noValue name => s!"Option {quoteText name} requires an argument."
  | .needlessValue name => s!"Option {quoteText name} does not take a value."

/-- A reason in words. -/
def UsageProblem.message : UsageProblem → String
  | .word problem => problem.message
  | .noVerb => "Missing command."
  | .unknownVerb name similar =>
    s!"No such command {quoteText name}." ++ hintOf similar
  | .noExperiment => "Missing argument 'EXPERIMENT'."
  | .missingPath text => s!"Invalid value for 'EXPERIMENT': Path {quoteText text} does not exist."
  | .missingDirectory text =>
    s!"Invalid value for '--work-dir' / '-C': Directory {quoteText text} does not exist."
  | .notDirectory text =>
    s!"Invalid value for '--work-dir' / '-C': Directory {quoteText text} is a file."
  | .extraOperands operands =>
    let plural := if operands.length = 1 then "" else "s"
    let words := " ".intercalate operands
    s!"Got unexpected extra argument{plural} ({words})"
  | .badFlag message => s!"Invalid value for --flag: {message}"
  | .nullByte => "embedded null byte"

/-- The name that the program shows for itself. -/
def programName : String := "cli"

/-- How the program, or one of its commands, is called. -/
def usageOf : Option Verb → String
  | none => s!"Usage: {programName} [OPTIONS] COMMAND [ARGS]..."
  | some verb =>
    let operand := if verb.takesExperiment then " EXPERIMENT" else ""
    s!"Usage: {programName} {verb.name} [OPTIONS]{operand}"

/-- The call that asks for help. -/
def helpCall : Option Verb → String
  | none => s!"{programName} --help"
  | some verb => s!"{programName} {verb.name} --help"

/-- Whether a message stands alone: that of an option which lacks a value or has a needless one. -/
def UsageProblem.standsAlone : UsageProblem → Bool
  | .word (.noValue _) | .word (.needlessValue _) => true
  | _ => false

/-- The lines of a usage message. -/
def UsageFault.lines (f : UsageFault) : List String :=
  (if f.problem.standsAlone then []
    else [usageOf f.verb, s!"Try '{helpCall f.verb}' for help.", ""]) ++
    [s!"Error: {f.problem.message}"]

/-! ## Help -/

/-- How an option is written. -/
def Switch.written (s : Switch) : String :=
  let letter := s.letter.elim "" fun c => String.ofList ['-', c, ',', ' ']
  letter ++ s.name ++ s.valueWord.elim "" (" " ++ ·)

/-- The lines of a list of terms with what each of them means. -/
def glossary (terms : List (String × String)) : List String :=
  let width := (terms.map (·.1.length)).foldl max 0
  terms.map fun (term, about) =>
    let space := String.ofList (List.replicate (width - term.length + 2) ' ')
    s!"  {term}{space}{about}"

/-- What the program is. -/
def programAbout : String := "treeflow - Experiment Tree Runner"

/-- The lines of the help for the program, or for one of its commands. -/
def helpLines (verb : Option Verb) : List String :=
  let options := verb.elim leadingSwitches Verb.switches
  [usageOf verb, "", s!"  {verb.elim programAbout Verb.about}", "", "Options:"] ++
    glossary (options.map fun s => (s.written, s.about)) ++
    if verb.isSome then []
    else ["", "Commands:"] ++ glossary (Verb.all.map fun v => (v.name, v.about))

/-! ## Reading -/

/-- What the words up to the name of a command ask for. -/
inductive Opening where
  | version
  | help
  | command (environmentFile : Option String) (verb : Verb) (words : List String)
deriving DecidableEq, Repr

/-- The first option that is answered at once, the version or help. -/
def urgent? (a : Arguments) : Option String :=
  (a.options.map (·.1)).find? fun name => name = versionSwitch.name || name = helpSwitch.name

/-- What options that are answered at once ask for. -/
def urgentOpening? (a : Arguments) : Option Opening :=
  (urgent? a).map fun name => if name = versionSwitch.name then .version else .help

/-- Whether a text holds the character that no path may hold. -/
def hasNull (text : String) : Bool := text.contains '\x00'

/-- Reads the command line up to the name of a command. A name that is not known is read once more
as an option. -/
def Opening.read (words : List String) : Except UsageFault Opening := do
  let refuse (problem : UsageProblem) : UsageFault := ⟨none, problem⟩
  let first ← (Arguments.read leadingSwitches false words).mapError (refuse ∘ .word)
  if let some opening := urgentOpening? first then return opening
  let file := first.value? environmentSwitch.name
  if file.any hasNull then throw (refuse .nullByte)
  match first.operands with
  | [] => throw (refuse .noVerb)
  | name :: rest =>
    match Verb.all.find? (·.name = name) with
    | some verb => return .command file verb rest
    | none =>
      -- a word that is no name may still be a switch in the wrong place
      let again ← (Arguments.read leadingSwitches false first.operands).mapError (refuse ∘ .word)
      if let some opening := urgentOpening? again then return opening
      throw (refuse (.unknownVerb name (Text.similar name (Verb.all.map Verb.name))))

/-- What a command line asks for. -/
inductive Request where
  | help (verb : Verb)
  | run (experiment : String) (workDir : Option String) (flags : List String)
      (strict verbose : Bool)
  | showTree (experiment : String)
  | stages
  | validate (experiment : String) (workDir : Option String)
deriving DecidableEq, Repr

/-- What a text leads to from a directory. The empty text leads nowhere, and a text that ends in a
slash leads to directories only. -/
def destination? (files : FileSystem) (current : Location) (text : String) :
    Option FileSystem.Entry :=
  let needsDirectory := (Path.splitSlashes text.toList).getLast?.any fun part =>
    part = [] || part = ['.']
  match files.stat current (.ofText text) with
  | .ok (_, entry) =>
    if text = "" || (needsDirectory && entry ≠ .directory) then none else some entry
  | .error _ => none

/-- Checks the working directory. -/
def checkDirectory (files : FileSystem) (current : Location) :
    Option String → Except UsageProblem Unit
  | none => .ok ()
  | some text =>
    if hasNull text then .error .nullByte
    else match destination? files current text with
    | some .directory => .ok ()
    | some (.file _) => .error (.notDirectory text)
    | none => .error (.missingDirectory text)

/-- The experiment among operands. -/
def takeExperiment (files : FileSystem) (current : Location) :
    List String → Except UsageProblem String
  | [] => .error .noExperiment
  | text :: rest =>
    if hasNull text then .error .nullByte
    else if (destination? files current text).isNone then .error (.missingPath text)
    else if rest.isEmpty then .ok text
    else .error (.extraOperands rest)

/-- Reads the words behind the name of a command. -/
def Request.ofArguments (files : FileSystem) (current : Location) (a : Arguments) :
    Verb → Except UsageProblem Request
  | .stages => if a.operands.isEmpty then .ok .stages else .error (.extraOperands a.operands)
  | .showTree => (takeExperiment files current a.operands).map .showTree
  | .validate => do
    let workDir := a.value? directorySwitch.name
    checkDirectory files current workDir
    return .validate (← takeExperiment files current a.operands) workDir
  | .run => do
    let workDir := a.value? directorySwitch.name
    checkDirectory files current workDir
    return .run (← takeExperiment files current a.operands) workDir
      (a.values flagSwitch.name) (a.has strictSwitch.name) (a.has verboseSwitch.name)

/-- Reads the words behind the name of a command. -/
def Request.read (files : FileSystem) (current : Location) (verb : Verb) (words : List String) :
    Except UsageFault Request :=
  match Arguments.read verb.switches true words with
  | .error problem => .error ⟨some verb, .word problem⟩
  | .ok a =>
    if a.has helpSwitch.name then .ok (.help verb)
    else (Request.ofArguments files current a verb).mapError fun problem => ⟨some verb, problem⟩

end Branchwork.Command
