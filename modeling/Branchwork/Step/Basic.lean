import Branchwork.Stage.Run
import Branchwork.Step.Shape
import Branchwork.Pattern.Rename

/-!
# Steps

A pipeline is a list of steps; each one takes the value of the step before. Steps are built from
stages by a few combinators over mappings, pairs and lists, so that a stage sees one value while
the pipeline carries a whole mapping of names to values.

* `const v`: `v`, whatever came before
* `listify`: `v ↦ [v]`
* `asKeys`: a list of names becomes the mapping of each name to itself
* `fileNames pattern`: the names of the files that match a pattern
* `duplicate`: `v ↦ (v, v)`
* `onRight s`: `(l, r) ↦ (l, s r)`
* `left`: `(l, r) ↦ l`
* `rename pattern target`: every key becomes its output name
* `onValues s`: every value `v` of a mapping becomes `s v`
* `joinKeys`: an entry whose value is a mapping becomes the entries of that mapping, their keys
  behind its key
* `pairs`: a mapping becomes the list of its entries
* `onEach s`: every member `x` of a list becomes `s x`
* `chain name steps`: the steps in order, as one step with a name
* `stage s`: a stage
-/

namespace Branchwork

/-- A step of a pipeline. -/
inductive Step where
  | const (v : Value)
  | listify
  | asKeys
  | fileNames (pattern : String)
  | duplicate
  | onRight (step : Step)
  | left
  | rename (pattern target : String)
  | onValues (step : Step)
  | joinKeys
  | pairs
  | onEach (step : Step)
  | chain (name : String) (steps : List Step)
  | stage (s : Stage)

namespace Step

/-- The name of a step. -/
def name : Step → String
  | .const _ => "immediate"
  | .listify => "listify"
  | .asKeys => "asKeys"
  | .fileNames _ => "fileInputs"
  | .duplicate => "tee"
  | .onRight step => s!"right({step.name})"
  | .left => "justLeft"
  | .rename _ _ => "keyMap"
  | .onValues step => s!"valueMap({step.name})"
  | .joinKeys => "deMap"
  | .pairs => "mapToTuples"
  | .onEach step => s!"map({step.name})"
  | .chain name _ => name
  | .stage s => s.name

end Step

/-! ## The combinators on values -/

namespace Mapping

/-- The mapping of each name to itself. -/
def ofKeys : List Value → Except ShapeProblem Mapping
  | [] => .ok []
  | names => names.foldlM (fun entries name => do return put (← name.key) name entries) []

/-- Renames keys by output names, put in order behind the entries in `done`. `sources` holds the
key that each new name came from; two keys may not get one name. -/
def renameFrom (pattern target : String) (done : Mapping) (sources : List (String × String)) :
    Mapping → Except Fault Mapping
  | [] => .ok done
  | (key, v) :: rest =>
    match key with
    | .text key =>
      let name := Pattern.outputName pattern key target
      match sources.lookup name with
      | some source => .error (.sameName source key name)
      | none => renameFrom pattern target (done ++ [(.text name, v)]) ((name, key) :: sources) rest
    | key => .error (.shape (.notName key.qualifiedKind))

/-- Renames every key of a mapping by its output name. -/
def rename (pattern target : String) (entries : Mapping) : Except Fault Mapping :=
  renameFrom pattern target [] [] entries

/-- The entries that an entry stands for: those of its value, if that is a mapping, behind its
key. -/
def joinEntry (key v : Value) : Mapping :=
  match v with
  | .map inner => inner.map fun (sub, v) => (.text (key.plain ++ "." ++ sub.plain), v)
  | v => [(key, v)]

/-- Flattens one level of mappings in a mapping. -/
def joinKeys (entries : Mapping) : Mapping :=
  ofPairs (entries.flatMap fun (key, v) => joinEntry key v)

/-- Applies an action to every value, one after the other. -/
def mapValues (action : Value → Action Value) : Mapping → Action Mapping
  | [] => return []
  | (key, v) :: rest => do
    let v ← action v
    return (key, v) :: (← mapValues action rest)

end Mapping

/-- The names of the files of the working directory that match a pattern. -/
def Stage.Scope.findFiles (scope : Stage.Scope) (pattern : String) : Action (List String) := do
  let files ← Action.files
  let base := scope.settings.workDir
  let found ← Action.ofExcept .glob (files.glob scope.host.current base pattern)
  let names := found.filter (Pattern.matchesName pattern)
  if names.isEmpty then Action.log .warning s!"No files in {base.text} match '{pattern}'"
  return names

/-- Applies an action to every value of a list, one after the other. -/
def mapItems (action : Value → Action Value) : List Value → Action (List Value)
  | [] => return []
  | v :: rest => do
    let v ← action v
    return v :: (← mapItems action rest)

namespace Step

mutual

/-- Runs a step on a value. -/
def run (scope : Stage.Scope) : Step → Value → Action Value
  | .const v, _ => return v
  | .listify, v => return .list [v]
  | .asKeys, v => do
    let names ← Action.ofShape v.members
    return .map (← Action.ofShape (Mapping.ofKeys names))
  | .fileNames pattern, _ => do
    return .list ((← scope.findFiles pattern).map .text)
  | .duplicate, v => return .tuple [v, v]
  | .onRight step, v => do
    let (l, r) ← Action.ofShape v.pair
    let r ← step.run scope r
    return .tuple [l, r]
  | .left, v => Action.ofShape v.first
  | .rename pattern target, v => do
    let entries ← Action.ofShape v.entries
    return .map (← Action.ofExcept id (entries.rename pattern target))
  | .onValues step, v => do
    let entries ← Action.ofShape v.entries
    return .map (← entries.mapValues (step.run scope))
  | .joinKeys, v => do
    let entries ← Action.ofShape v.entries
    return .map entries.joinKeys
  | .pairs, v => do
    let entries ← Action.ofShape v.entries
    return .list (entries.map fun (key, v) => .tuple [key, v])
  | .onEach step, v => do
    let items ← Action.ofShape v.members
    return .list (← mapItems (step.run scope) items)
  | .chain _ steps, v => runAll scope steps v
  | .stage s, v => s.run scope v

/-- Runs steps in order. -/
def runAll (scope : Stage.Scope) : List Step → Value → Action Value
  | [], v => return v
  | step :: rest, v => do
    let v ← step.run scope v
    runAll scope rest v

end

end Step

end Branchwork
