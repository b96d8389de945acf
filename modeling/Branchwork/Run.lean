import Branchwork.Pipeline.Run

/-!
# Running an experiment

A run applies the flags of an experiment to the settings, builds every pipeline, and runs one after
the other, whatever fails. It shows its progress on the console and tells at the end how many
pipelines ran and which failed.
-/

namespace Branchwork

namespace Run

/-- What a run is started with: the host, the settings, the registry of stages, and whether it
tells about every pipeline that it starts. -/
structure Setup where
  host : Host
  settings : Settings
  registry : Registry Stage
  verbose : Bool

/-- Applies flags to settings, with a warning for each value that they replace. -/
def applyFlags (settings : Settings) (flags : Mapping) : Action Settings := do
  (settings.warnings flags).forM fun
    | some warning => Action.log .warning warning
    | none => throw .overlong
  match settings.withFlags flags with
  | .ok settings => return settings
  | .error .nameless => throw .namelessFlag
  | .error (.invalid faults) => throw (.settings faults)

/-- The device of a run. It warns if the checkout of the browser is not there. -/
def openDevice (host : Host) (settings : Settings) : Action Device := do
  match settings.chromium.filter (· ≠ "") with
  | some checkout =>
    let found ← Action.look host.current (.ofText checkout)
    unless found.any (·.2 = .directory) do
      Action.log .warning s!"Chromium checkout not found: {checkout}"
  | none => pure ()
  Action.log .info s!"Telemetry device ready (browser={settings.saveBrowser})"
  return Capture.device host settings

/-- Whether the flags of an experiment ask for a device. -/
def wantsDevice (flags : Mapping) : Bool :=
  (Mapping.find? flags "chromium").any Value.isTruthy

/-- What the stages of an experiment work with: the settings with its flags, and its device. -/
def prepare (setup : Setup) (experiment : Experiment) : Action Stage.Scope := do
  let settings ← applyFlags setup.settings experiment.flags
  let device ←
    if wantsDevice experiment.flags then some <$> openDevice setup.host settings else pure none
  return ⟨settings, setup.host, device⟩

/-- Prepares an experiment and builds its pipelines. -/
def build (setup : Setup) (experiment : Experiment) :
    Action (Stage.Scope × List Pipeline) := do
  let scope ← prepare setup experiment
  let pipelines ← Action.ofExcept id (Pipeline.buildAll setup.registry experiment)
  return (scope, pipelines)

/-! ## Lines about a run -/

/-- The line that a run starts with. -/
def headLine (name : String) (count : Nat) : String :=
  let plural := if count = 1 then "" else "s"
  s!"[bold blue]Running experiment:[/bold blue] {Markup.escape name} ({count} pipeline{plural})"

/-- The line for a pipeline that starts. -/
def startLine (count index : Nat) (label : String) : String :=
  s!"  [cyan]{index + 1}/{count}[/cyan] {Markup.escape label}"

/-- The line for a pipeline that succeeded. -/
def doneLine (label : String) : String := s!"    [green]✓[/green] {Markup.escape label} (0ms)"

/-- The line for a pipeline that failed. -/
def failureLine (label : String) (cause : Fault) : String :=
  s!"    [red]✗[/red] {Markup.escape label}: {Markup.escape cause.message}"

/-! ## Running -/

/-- Shows how a pipeline ended. A failure is logged as well. -/
def report (label : String) (outcome : Outcome) : Action Unit := do
  match outcome.failure with
  | none => Action.printMarkup (doneLine label)
  | some failure =>
    Action.log .error s!"failed pipeline {failure.message}"
    Action.printMarkup (failureLine label failure.cause)

/-- Runs one pipeline of `count`, shows how it ended, and gives the failure, if there is one. -/
def runPipeline (setup : Setup) (scope : Stage.Scope) (count index : Nat) (p : Pipeline) :
    Action (Option Failure) := do
  if setup.verbose then Action.printMarkup (startLine count index p.label)
  let outcome ← (p.run scope : StateM World Outcome)
  report p.label outcome
  return outcome.failure

/-- Runs pipelines in order, the first one with the given index, and gives the failures. -/
def runPipelines (setup : Setup) (scope : Stage.Scope) (count index : Nat) :
    List Pipeline → Action (List Failure)
  | [] => return []
  | p :: rest => do
    let failure ← runPipeline setup scope count index p
    let more ← runPipelines setup scope count (index + 1) rest
    return failure.elim more (· :: more)

/-- Shows the summary of a run. -/
def showSummary (result : RunResult) : Action Unit := do
  Action.print "╭─ Summary ─╮"
  Action.print s!"│ Pipelines run: {result.pipelines} │"
  Action.print s!"│ Failed: {result.failures.length} │"
  Action.print "│ Duration: 0.0s │"
  Action.print "╰─╯"

/-- Runs an experiment. -/
def experiment (setup : Setup) (e : Experiment) : Action RunResult := do
  -- a fault in any pipeline stops the run here, before anything is shown
  let (scope, pipelines) ← build setup e
  let count := pipelines.length
  Action.printMarkup (headLine e.name count)
  let failures ← runPipelines setup scope count 0 pipelines
  let result : RunResult := ⟨count, failures⟩
  showSummary result
  Action.giveNotice (.runDone result)
  return result

/-- Reads the description of an experiment. -/
def parse (text : String) (name : Option String) : Action Experiment :=
  Action.ofExcept .experiment (Experiment.read text name)

/-- Loads an experiment from a file, whose stem serves as its name. -/
def load (host : Host) (p : Path) : Action Experiment := do
  unless (← Action.look host.current p).isSome do throw (.noExperiment p.text)
  let bytes ← Action.ofExcept .files ((← Action.files).readFile host.current p)
  let text ← Action.ofExcept .utf8 (Utf8.decode bytes)
  parse (String.ofList (Text.unifyLineEnds text.toList)) (some p.stem)

end Run

end Branchwork
