import Branchwork.Experiment.Problem
import Branchwork.Text.Blank
import Branchwork.Value.Display

/-!
# Branch trees

A tree maps identifiers to the edges that leave them, in order. An edge applies stages and leads to
an output. An output that is itself a key of the tree is passed on to the edges there, and is
written on the way (`materialize`) or not (`passthrough`); every other output is where a path ends
(`sink`).

Edges are read from mappings or from the short form `stage stage -> output`.
-/

namespace Branchwork.Experiment

/-- What happens at the output of an edge. -/
inductive Policy where
  | sink
  | materialize
  | passthrough
deriving DecidableEq, Repr

/-- Stages applied in order, and the output that they lead to. -/
structure Edge where
  stages : List String
  output : String
  policy : Policy
deriving DecidableEq, Repr

/-- The nodes of a tree with their edges, in order, each identifier once. -/
abbrev Tree := List (String × List Edge)

/-- The word for a policy. -/
def Policy.name : Policy → String
  | .sink => "sink"
  | .materialize => "materialize"
  | .passthrough => "passthrough"

namespace Tree

/-- The edges of a node. -/
def edges? (tree : Tree) (key : String) : Option (List Edge) := tree.lookup key

/-- Puts the edges of a node; a node that is there keeps its place. -/
def put (key : String) (edges : List Edge) : Tree → Tree
  | [] => [(key, edges)]
  | (k, old) :: rest =>
    if k = key then (key, edges) :: rest else (k, old) :: put key edges rest

end Tree

/-- The parts of a text before and behind its last arrow. -/
def splitLastArrow? : List Char → Option (List Char × List Char)
  | [] => none
  | c :: rest =>
    match splitLastArrow? rest with
    | some (before, behind) => some (c :: before, behind)
    | none =>
      match c, rest with
      | '-', '>' :: behind => some ([], behind)
      | _, _ => none

/-- The mapping that an edge in the short form stands for. -/
def Edge.ofShortForm? (text : String) : Option Mapping :=
  (splitLastArrow? text.toList).map fun (before, behind) =>
    [(.text "stages", .list ((Text.words before).map fun word => .text (String.ofList word))),
      (.text "output", .text (String.ofList (Text.trim behind)))]

/-- The texts of a list, if it holds texts only. -/
def texts? : List Value → Option (List String)
  | [] => some []
  | .text s :: rest => (texts? rest).map (s :: ·)
  | _ :: _ => none

/-- The output of an edge, without blanks around it. -/
def readOutput (place : String) (data : Mapping) : Except Problem String :=
  match Mapping.find? data "output" with
  | some (.text s) => if trimText s = "" then .error (.noOutput place) else .ok (trimText s)
  | _ => .error (.noOutput place)

/-- The stages of an edge: a list of names, or a text with the names in it. -/
def readStages (place : String) (data : Mapping) : Except Problem (List String) :=
  match Mapping.find? data "stages" with
  | none => .ok []
  | some (.text s) => .ok (textWords s)
  | some (.list items) => (texts? items).elim (.error (.badStages place)) .ok
  | some _ => .error (.badStages place)

/-- Whether an edge says that its output is written. -/
def readMaterialize (place : String) (data : Mapping) : Except Problem (Option Bool) :=
  match Mapping.find? data "materialize" with
  | none | some .null => .ok none
  | some (.bool b) => .ok (some b)
  | some _ => .error (.badMaterialize place)

/-- The mark at the end of an output that is not written on the way. -/
def suppressMark : Char := '*'

/-- The policy of an edge, given whether its output is a key of the tree. -/
def policyOf (isInternal : Bool) (output : String) : Option Bool → Policy
  | written =>
    if !isInternal then .sink
    else
      match written with
      | some true => .materialize
      | some false => .passthrough
      | none => if output.toList.getLast? = some suppressMark then .passthrough else .materialize

/-- Reads an edge from a mapping. -/
def Edge.ofMapping (keys : List String) (place : String) (data : Mapping) :
    Except Problem Edge := do
  let output ← readOutput place data
  let stages ← readStages place data
  let written ← readMaterialize place data
  return ⟨stages, output, policyOf (keys.contains output) output written⟩

/-- Reads an edge. -/
def Edge.read (keys : List String) (place : String) : Value → Except Problem Edge
  | .text s =>
    match Edge.ofShortForm? s with
    | some data => Edge.ofMapping keys place data
    | none => .error (.noArrow place s)
  | .map data => Edge.ofMapping keys place data
  | _ => .error (.edgeShape place)

/-- Reads the edges of a node from the given index on. -/
def readEdges (keys : List String) (node : String) :
    Nat → List Value → Except Problem (List Edge)
  | _, [] => .ok []
  | i, data :: rest => do
    let edge ← Edge.read keys s!"tree['{node}'][{i}]" data
    return edge :: (← readEdges keys node (i + 1) rest)

/-- The edges as a list; a single edge may stand without one. -/
def edgeList : Value → List Value
  | .list items => items
  | .map data => [.map data]
  | .text s => [.text s]
  | _ => []

/-- Reads the nodes of a tree, put in order behind those in `tree`. -/
def Tree.ofEntries (keys : List String) (tree : Tree) :
    List (String × Value) → Except Problem Tree
  | [] => .ok tree
  | (key, data) :: rest => do
    if (edgeList data).isEmpty then throw (.noEdges key)
    let edges ← readEdges keys key 0 (edgeList data)
    Tree.ofEntries keys (tree.put key edges) rest

/-- The text of a key with its value. -/
def keyed : Value × Value → Except Problem (String × Value)
  | (key, v) => key.plain?.elim (.error .overlong) fun text => .ok (text, v)

/-- Reads a tree. Keys that are not texts stand for their text. -/
def Tree.read : Value → Except Problem Tree
  | .map entries => do
    let entries ← entries.mapM keyed
    Tree.ofEntries (entries.map (·.1)) [] entries
  | _ => .error .treeShape

end Branchwork.Experiment
