import Branchwork.Experiment.Input
import Branchwork.Experiment.Tree
import Branchwork.Yaml.Load

/-!
# Experiments

An experiment has a name, inputs, a tree in which each input has edges, and flags that override
settings. It is described by a YAML mapping with the entries `inputs`, `tree`, `flags` and `name`.
-/

namespace Branchwork

/-- An experiment. -/
structure Experiment where
  name : String
  inputs : List Experiment.Input
  tree : Experiment.Tree
  flags : Mapping

namespace Experiment

/-- The name of an experiment that is given none. -/
def defaultName : String := "experiment"

/-- The identifiers of the inputs; a single one may stand without a list. -/
def readIdentifiers : Value → Except Problem (List String)
  | .text s => .ok [s]
  | .list items => (texts? items).elim (.error .badInputs) .ok
  | _ => .error .badInputs

/-- The flags; a value that counts as false stands for none. -/
def readFlags : Option Value → Except Problem Mapping
  | none => .ok []
  | some (.map entries) => .ok entries
  | some v => if v.isTruthy then .error .badFlags else .ok []

/-- The name of an experiment: the one that it gives itself, or else the given one. -/
def nameOf (written : Option Value) (given : Option String) : Except Problem String :=
  match written.filter Value.isTruthy with
  | some v => v.plain?.elim (.error .overlong) .ok
  | none => .ok ((given.filter (· ≠ "")).getD defaultName)

/-- Checks that an identifier has edges. -/
def requireEdges (tree : Tree) (identifier : String) : Except Problem Unit :=
  if (tree.edges? identifier).isSome then .ok () else .error (.inputOutsideTree identifier)

/-- Reads an experiment from its entries. -/
def ofMapping (name : Option String) (data : Mapping) : Except Problem Experiment := do
  let inputs ← (Mapping.find? data "inputs").elim (.error .noInputs) .ok
  let tree ← (Mapping.find? data "tree").elim (.error .noTree) .ok
  let identifiers ← readIdentifiers inputs
  let flags ← readFlags (Mapping.find? data "flags")
  let tree ← Tree.read tree
  identifiers.forM (requireEdges tree)
  -- the name is turned into text before the inputs are read
  let name ← nameOf (Mapping.find? data "name") name
  let inputs ← identifiers.mapM Input.read
  return { name, inputs, tree, flags }

/-- Reads the description of an experiment; `name` serves if the description gives no name. -/
def read (text : String) (name : Option String) : Except Problem Experiment :=
  match Yaml.load text with
  | .error problem => .error (.ofYaml problem)
  | .ok (.map data) => ofMapping name data
  | .ok _ => .error .shape

end Experiment

end Branchwork
