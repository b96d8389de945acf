import Branchwork.Command.Flag
import Branchwork.Command.Request
import Branchwork.Command.Startup
import Branchwork.Console.Outline
import Branchwork.Console.Table
import Branchwork.Run

/-!
# What the commands do

`run` runs an experiment, `validate` builds its pipelines and tells about them, `show` shows the
paths that its tree is flattened into, and `stages` lists the stages. An experiment that cannot be
built ends a command with status 1; a command line that cannot be read ends it with status 2.
-/

namespace Branchwork.Command

/-- How a command ends: with a status, or because of something that nothing was prepared for. -/
inductive Ending where
  | exit (status : Nat)
  | stopped (fault : Fault)

/-- Shows lines as they are. -/
def printLines (lines : List String) : Action Unit :=
  modify fun w => { w with shown := w.shown ++ String.join (lines.map (· ++ "\n")) }

/-- Whether a cause is one that the build of an experiment is expected to have. -/
def isBuildFault : Fault → Bool
  | .experiment (.badScalar _) | .experiment .overlong => false
  | .experiment _ | .cycle _ | .unknownStage _ _ | .settings _ => true
  | _ => false

/-- Goes on with the result of an action. If an expected fault stops the action, the fault is shown
behind a text and the status is 1. -/
def orderly {α : Type} (start : String) (action : Action α) (next : α → Action Nat) :
    Action Nat := do
  match ← Action.attempt action with
  | .ok a => next a
  | .error fault =>
    unless isBuildFault fault do throw fault
    Action.printMarkup s!"[red]✗[/red] {start}{Markup.escape fault.message}"
    return 1

/-- What a run is started with: flags override the environment, and the working directory of the
command line overrides both. -/
def setupOf (host : Host) (workDir : Option String) (flags : List String) (verbose : Bool) :
    Action Run.Setup := do
  let flags ← Action.ofExcept id (readFlags flags)
  let options := match workDir.filter (· ≠ "") with
    | some text => Mapping.put (.text "work_dir") (.path (.ofText text)) flags
    | none => flags
  match Settings.named? options with
  | none => throw .namelessFlag
  | some options =>
    let settings ← Action.ofExcept .settings (Settings.ofOptions host.settings options)
    return ⟨host, settings, .builtIn, verbose⟩

/-- Shows which pipelines failed. -/
def showFailures (failures : List Failure) : Action Unit := do
  unless failures.isEmpty do
    Action.printMarkup s!"\n[yellow]{failures.length} pipeline(s) failed:[/yellow]"
    failures.forM fun f => Action.printMarkup s!"  • {Markup.escape f.message}"

/-- Runs an experiment. -/
def run (host : Host) (experiment : String) (workDir : Option String) (flags : List String)
    (strict verbose : Bool) : Action Nat :=
  orderly ""
    (do
      let e ← Run.load host (.ofText experiment)
      Run.experiment (← setupOf host workDir flags verbose) e)
    fun result => do
      showFailures result.failures
      return if strict && !result.isSuccess then 1 else 0

/-- A text with tags as it is seen. -/
def plainCell (text : String) : Action String :=
  Action.ofExcept .markup (Markup.plain text)

/-- The names of flags as one text, or a dash if there are none. -/
def flagNames (flags : Mapping) : String :=
  let names := ", ".intercalate (flags.map (·.1.plain))
  if names = "" then "-" else names

/-- What is told about an experiment with a count of pipelines. -/
def summaryOf (e : Experiment) (pipelines : Nat) : List (String × String) :=
  [("Name", e.name), ("Inputs", toString e.inputs.length), ("Tree nodes", toString e.tree.length),
    ("Pipelines", toString pipelines), ("Flags", flagNames e.flags)]

/-- Builds the pipelines of an experiment and tells about them. -/
def validate (host : Host) (experiment : String) (workDir : Option String) : Action Nat :=
  orderly "Validation failed: "
    (do
      let e ← Run.load host (.ofText experiment)
      let (_, pipelines) ← Run.build (← setupOf host workDir [] false) e
      return (e, pipelines.length))
    fun (e, count) => do
      Action.printMarkup s!"[green]✓[/green] Experiment '{Markup.escape e.name}' is valid"
      Action.print ""
      let rows ← (summaryOf e count).mapM fun (property, value) => do
        return [property, ← plainCell value]
      let table : Console.Table := ⟨"Experiment Summary", ["Property", "Value"], rows⟩
      printLines table.lines
      return 0

/-- The stages of a leaf as one text. -/
def stagesText (leaf : Experiment.Leaf) : String :=
  let stages := " → ".intercalate (leaf.stages.map (·.text))
  if stages = "" then "(no stages)" else stages

/-- The label of a leaf, with tags. -/
def leafLabel (leaf : Experiment.Leaf) : String :=
  s!"{Markup.escape (stagesText leaf)} ⇒ [green]{Markup.escape leaf.output}[/green]"

/-- The outline of an input with its leaves. -/
def inputOutline (tree : Experiment.Tree) (input : Experiment.Input) :
    Except Fault Console.Outline := do
  let leaves ← (tree.leaves input.identifier).mapError .cycle
  let label ← (Markup.plain
    s!"[cyan]{Markup.escape input.identifier}[/cyan] ({input.kind.name})").mapError .markup
  let below ← leaves.mapM fun leaf => (Markup.plain (leafLabel leaf)).mapError Fault.markup
  return .node label (below.map fun label => .node label [])

/-- The outline of an experiment: its inputs, and the leaves below each of them. -/
def outlineOf (e : Experiment) : Except Fault Console.Outline := do
  let below ← e.inputs.mapM (inputOutline e.tree)
  let name ← (Markup.plain s!"[bold]{Markup.escape e.name}[/bold]").mapError .markup
  return .node name below

/-- Shows the paths that the tree of an experiment is flattened into. -/
def showTree (host : Host) (experiment : String) : Action Nat :=
  orderly ""
    (do
      let e ← Run.load host (.ofText experiment)
      Action.ofExcept id (outlineOf e))
    fun outline => do
      printLines outline.lines
      return 0

/-- Lists the stages. -/
def listStages : Action Nat := do
  let names := (Registry.builtIn.names).mergeSort fun a b => a ≤ b
  names.forM fun name => Action.printMarkup s!"  • {name}"
  return 0

/-- Does what a request asks for. -/
def perform (host : Host) : Request → Action Nat
  | .help verb => do
    printLines (helpLines (some verb))
    return 0
  | .run experiment workDir flags strict verbose =>
    run host experiment workDir flags strict verbose
  | .showTree experiment => showTree host experiment
  | .stages => listStages
  | .validate experiment workDir => validate host experiment workDir

/-- The status of a command line that is refused. -/
def usageStatus : Nat := 2

/-- Shows why a command line is refused. A path that no path can be is not refused but stops the
command. -/
def refuse (fault : UsageFault) : Action Nat := do
  if fault.problem = .nullByte then throw (.shape .nullByte)
  printLines fault.lines
  return usageStatus

/-- Performs a command. A flag that cannot be read is a refused command line. -/
def performVerb (host : Host) (verb : Verb) (words : List String) : Action Nat := do
  match Request.read (← Action.files) host.current verb words with
  | .error fault => refuse fault
  | .ok request =>
    -- flags are read while the command is performed, but a bad one is a bad command line
    match ← Action.attempt (perform host request) with
    | .ok status => return status
    | .error (.badFlag written) =>
      refuse ⟨some verb, .badFlag (Fault.badFlag written).message⟩
    | .error fault => throw fault

/-- The version of the program. -/
def versionLine : String := "treeflow, version 0.1.0"

/-- Performs a command line and gives the status. -/
def performLine (host : Host) (words : List String) : Action Nat := do
  if words.isEmpty then
    printLines (helpLines none)
    return usageStatus
  match Opening.read words with
  | .error fault => refuse fault
  | .ok .version => do
    printLines [versionLine]
    return 0
  | .ok .help => do
    printLines (helpLines none)
    return 0
  | .ok (.command environmentFile verb words) => do
    let (host, _) ← Startup.load host environmentFile
    performVerb host verb words

/-- Performs a command line. -/
def performAll (host : Host) (words : List String) : StateM World Ending := do
  match ← (performLine host words).run with
  | .ok status => return .exit status
  | .error fault => return .stopped fault

end Branchwork.Command
