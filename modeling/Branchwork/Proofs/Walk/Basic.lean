import Branchwork.Proofs.Experiment.EdgeBelow
import Branchwork.Proofs.Pipeline.Over
import Branchwork.Proofs.Stage.Again
import Branchwork.Proofs.Stage.Write

/-!
# Walking a branch tree

A walk goes through the unfolding of a tree as it stands, without pipelines. The mapping of an input
is read once. Each edge applies its stages once to the mapping of the node that it leaves, and its
output is written once. If the stages of an edge or its output fail, the walk gives up what lies below
the edge, and goes on with the next edge.

A walk keeps book of how each leaf ended and of the files that each edge has written, so that it can
be said when the leaves can be run one by one instead: `Walk.Undisturbed`.
-/

namespace Branchwork

open Experiment Action

namespace Walk

/-! ## Trees that can be walked -/

/-- The names of stages that look at no files but the templates, and write none. -/
def Passing (names : List String) : Prop := ∀ name ∈ names, ∃ s ∈ Stage.passing, s.name = name

/-- What a walk takes for granted of an unfolding: its edges apply passing stages, and those that lead
to a node are no ends of a path and have edges below them. -/
def Walkable : Unfolding → Prop
  | .done => True
  | .sink edge rest => Passing edge.stages ∧ Walkable rest
  | .node edge below rest =>
    Passing edge.stages ∧ edge.policy ≠ .sink ∧ below ≠ .done ∧ Walkable below ∧ Walkable rest

variable (scope : Stage.Scope)

/-! ## Stages of an edge -/

/-- Applies a stage to every value of a mapping. -/
def applyStage (name : String) (entries : Mapping) : Action Mapping := do
  let stage ← ofExcept (fun unknown => .unknownStage unknown.name unknown.known)
    (Registry.builtIn.lookup name)
  let entries ← entries.mapValues (stage.run scope)
  return if Pipeline.flattened.contains name then entries.joinKeys else entries

/-- Applies stages in order. -/
def applyStages : List String → Mapping → Action Mapping
  | [], entries => return entries
  | name :: rest, entries => do
    let entries ← applyStage scope name entries
    applyStages rest entries

/-! ## Writing -/

/-- What came of writing: the fault that stopped it, the files behind, and the places of the files
that were opened. -/
structure Written where
  fault? : Option Fault
  files : FileSystem
  places : List Location

/-- The place of the file that is opened under a name, unless opening it fails. -/
def openedPlaces (name : Value) (fs : FileSystem) : List Location :=
  match (scope.openFile name).over fs with
  | (.ok p, behind) => (behind.follow scope.host.current p).toOption.toList
  | (.error _, _) => []

/-- Writes the entries of a mapping, each to the file that its key names. -/
def writeEach : Mapping → FileSystem → Written
  | [], fs => ⟨none, fs, []⟩
  | (name, v) :: rest, fs =>
    let opened := openedPlaces scope name fs
    match (scope.store name v).over fs with
    | (.error fault, behind) => ⟨some fault, behind, opened⟩
    | (.ok _, behind) =>
      let others := writeEach rest behind
      { others with places := opened ++ others.places }

/-- Writes a mapping under the names that a target gives to its keys. -/
def write (input : Input) (target : String) (entries : Mapping) (fs : FileSystem) : Written :=
  match entries.rename input.pattern target with
  | .error fault => ⟨some fault, fs, []⟩
  | .ok named => writeEach scope named fs

/-- Delivers a mapping to the output at the end of a path. -/
def deliver (input : Input) (edge : Edge) (entries : Mapping) (fs : FileSystem) : Written :=
  if edge.output = Pipeline.consoleOutput then
    ⟨faultOf ((Stage.runConsole (.map entries)).over fs).1, fs, []⟩
  else write scope input edge.output entries fs

/-- Writes a mapping on its way into a node, if the edge says so. -/
def keep (input : Input) (edge : Edge) (entries : Mapping) (fs : FileSystem) : Written :=
  if edge.policy = .materialize then write scope input edge.output entries fs
  else ⟨none, fs, []⟩

/-! ## Edges -/

/-- What came of a mapping on an edge: the mapping behind it or why there is none, the files behind,
and the places that were written. -/
structure Passed where
  result : Except Fault Mapping
  files : FileSystem
  places : List Location

/-- Takes a mapping through the stages of an edge, and hands it over to what happens behind them. -/
def pass (stages : List String) (act : Mapping → FileSystem → Written) (entries : Mapping)
    (fs : FileSystem) : Passed :=
  match (applyStages scope stages entries).over fs with
  | (.error fault, behind) => ⟨.error fault, behind, []⟩
  | (.ok entries, behind) =>
    let written := act entries behind
    ⟨written.fault?.elim (.ok entries) .error, written.files, written.places⟩

/-! ## Trees -/

/-- How far a walk has come: the files behind it, how each leaf has ended, in order, and the places
that each edge has written. -/
structure Progress where
  files : FileSystem
  ends : List (Option Fault)
  written : List (List Location)

/-- Gives up leaves for one cause. -/
def abandon (leaves : Nat) (cause : Fault) (fs : FileSystem) : Progress :=
  ⟨fs, List.replicate leaves (some cause), []⟩

/-- What is done behind an edge: the walk goes on below it, or gives up the leaves there. -/
def Passed.onward (passed : Passed) (leaves : Nat) (below : Mapping → FileSystem → Progress) :
    Progress :=
  match passed.result with
  | .error cause => abandon leaves cause passed.files
  | .ok entries => below entries passed.files

/-- Walks through an unfolding with the mapping of the node above it. -/
def walk (input : Input) : Unfolding → Mapping → FileSystem → Progress
  | .done, _, fs => ⟨fs, [], []⟩
  | .sink edge rest, entries, fs =>
    let passed := pass scope edge.stages (deliver scope input edge) entries fs
    let others := walk input rest entries passed.files
    ⟨others.files, faultOf passed.result :: others.ends, passed.places :: others.written⟩
  | .node edge below rest, entries, fs =>
    let passed := pass scope edge.stages (keep scope input edge) entries fs
    let inner := passed.onward below.size (walk input below)
    let others := walk input rest entries inner.files
    ⟨others.files, inner.ends ++ others.ends, passed.places :: (inner.written ++ others.written)⟩

/-! ## Inputs -/

/-- The stage that reads the files of an input. -/
def reader (input : Input) : Stage :=
  if input.kind = .fileText then .fileToString else .fileToJson

/-- Reads an input: the names of its files, each with what the file holds. -/
def readInput (input : Input) : Action Mapping := do
  let names ← scope.findFiles input.pattern
  let entries ← ofShape (Mapping.ofKeys (names.map .text))
  entries.mapValues ((reader input).run scope)

/-- Walks through the unfolding of an input. -/
def walkInput (input : Input) (u : Unfolding) (fs : FileSystem) : Progress :=
  match (readInput scope input).over fs with
  | (.error cause, behind) => abandon u.size cause behind
  | (.ok entries, behind) => walk scope input u entries behind

/-- Nothing that a walk writes is read by it: no place is written by two edges, none lies in the
directory of the templates, and none is found again as an input. -/
structure Progress.Apart (progress : Progress) (pattern : String) (start : FileSystem) : Prop where
  once : progress.written.Pairwise List.Disjoint
  templates : scope.TemplatesApart progress.written.flatten progress.files
  inputs : scope.InputsApart pattern progress.written.flatten start progress.files

/-- For each input nothing that its walk writes is read by it. -/
def Undisturbed : List (Input × Unfolding) → FileSystem → Prop
  | [], _ => True
  | (input, u) :: rest, fs =>
    (walkInput scope input u fs).Apart scope input.pattern fs ∧
      Undisturbed rest (walkInput scope input u fs).files

end Walk

end Branchwork
