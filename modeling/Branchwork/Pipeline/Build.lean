import Branchwork.Experiment.Leaf
import Branchwork.Step.Basic

/-!
# Building pipelines

A pipeline belongs to one input and one leaf. It acquires the input as a mapping of names to
values, applies the stages of the leaf to every value, and writes or shows what comes out. All
stages are looked up while pipelines are built, so an unknown name stops the experiment before
anything has run.
-/

namespace Branchwork

open Experiment

/-- A pipeline for one leaf of one input. -/
structure Pipeline where
  input : Input
  leaf : Leaf
  steps : List Step

namespace Pipeline

/-- The label of a pipeline. -/
def label (p : Pipeline) : String := s!"{p.input.identifier} -> {p.leaf.output}"

/-- The output that stands for the console. -/
def consoleOutput : String := "console"

/-- The stages that turn a value into a mapping, which is flattened behind them. -/
def flattened : List String := ["template", "tracePIDSplitter"]

/-- The step for the stage with a name. -/
def stageStep (registry : Registry Stage) (name : String) : Except Fault Step :=
  match registry.lookup name with
  | .ok stage => .ok (.stage stage)
  | .error unknown => .error (.unknownStage unknown.name unknown.known)

/-- The steps that write a mapping: output names for its keys, then every entry to its file. -/
def writeSteps (registry : Registry Stage) (input : Input) (target : String) :
    Except Fault (List Step) := do
  let writer ← stageStep registry "toFile"
  return [.rename input.pattern target, .pairs, .onEach writer]

/-- The step that writes a mapping and passes it on. -/
def materializeStep (registry : Registry Stage) (input : Input) (target : String) :
    Except Fault Step := do
  let steps ← writeSteps registry input target
  return .chain (materializeStart ++ target) (.duplicate :: steps.map .onRight ++ [.left])

/-- The target of a stage name that stands for the writing of an intermediate output. -/
def materializeTarget? (name : String) : Option String :=
  if materializeStart.toList.isPrefixOf name.toList then
    some (String.ofList (name.toList.drop materializeStart.length))
  else none

/-- The step for a stage of a leaf. -/
def resolve (registry : Registry Stage) (input : Input) : StageRef → Except Fault Step
  | .materialize target => materializeStep registry input target
  | .named name =>
    match materializeTarget? name with
    | some target => materializeStep registry input target
    | none => do
      let step := Step.onValues (← stageStep registry name)
      return if flattened.contains name then .chain name [step, .joinKeys] else step

/-- The name of the stage that reads a kind of input. -/
def readerName : InputKind → String
  | .file => "fileToJSON"
  | .fileText => "fileToString"
  | .capture => "telemetrySave"
  | .captureUnstyled => "telemetrySaveNoStyle"

/-- The steps that give the names of an input. -/
def sourceSteps (input : Input) : List Step :=
  if input.kind.isCapture then [.const (.text input.pattern), .listify]
  else [.fileNames input.pattern]

/-- The steps that acquire an input. -/
def inputSteps (registry : Registry Stage) (input : Input) : Except Fault (List Step) := do
  let reader ← stageStep registry (readerName input.kind)
  return sourceSteps input ++ [.asKeys, .onValues reader]

/-- The steps that deliver a mapping to an output. -/
def sinkSteps (registry : Registry Stage) (input : Input) (output : String) :
    Except Fault (List Step) := do
  if output = consoleOutput then return [← stageStep registry "taggedConsoleOutput"]
  else writeSteps registry input output

/-- Builds the pipeline for a leaf of an input. -/
def build (registry : Registry Stage) (input : Input) (leaf : Leaf) : Except Fault Pipeline := do
  let source ← inputSteps registry input
  let stages ← leaf.stages.mapM (resolve registry input)
  let sink ← sinkSteps registry input leaf.output
  return { input, leaf, steps := source ++ stages ++ sink }

/-- Builds the pipelines for an input, in the order of its leaves. -/
def buildInput (registry : Registry Stage) (tree : Tree) (input : Input) :
    Except Fault (List Pipeline) := do
  let leaves ← (tree.leaves input.identifier).mapError .cycle
  leaves.mapM (build registry input)

/-- Builds the pipelines for inputs, in order. -/
def buildInputs (registry : Registry Stage) (tree : Tree) :
    List Input → Except Fault (List Pipeline)
  | [] => .ok []
  | input :: rest => do
    let first ← buildInput registry tree input
    let more ← buildInputs registry tree rest
    return first ++ more

/-- Builds every pipeline of an experiment, in the order of the inputs and then of the leaves. -/
def buildAll (registry : Registry Stage) (experiment : Experiment) :
    Except Fault (List Pipeline) :=
  buildInputs registry experiment.tree experiment.inputs

end Pipeline

end Branchwork
