import Branchwork.Yaml.Node.Parser
import Branchwork.Yaml.Scalar
import Branchwork.Yaml.Token.Lexer

/-!
# Loading YAML

`Yaml.load` reads a text and gives the value of its document, null if there is none.

The entries of a mapping may be merged into another one by the key `<<`; an entry that the other
mapping has itself wins. When several nodes cannot be given a value, the problem that lies least
deep counts, and of several at one depth the first.
-/

namespace Branchwork.Yaml

/-! ## Merging -/

/-- Whether a node is the key that asks for a merge. -/
def Node.isMergeKey (node : Node) : Bool := node.tag = .merge

/-- The same node with another tag. -/
def Node.retagged (tag : Tag) : Node → Node
  | .scalar _ text => .scalar tag text
  | .sequence _ items => .sequence tag items
  | .mapping _ entries => .mapping tag entries

/-- A key `=` is an ordinary text. -/
def Node.plainKey (node : Node) : Node := if node.tag = .value then node.retagged .text else node

mutual

/-- The text of a scalar, or of the first entry `=` that stands for a mapping. -/
def Node.scalarText? : Node → Option String
  | .scalar _ text => some text
  | .sequence _ _ => none
  | .mapping _ entries => entryText? entries

/-- The text of the first entry `=`. -/
def entryText? : List (Node × Node) → Option String
  | [] => none
  | (key, value) :: rest => if key.tag = .value then value.scalarText? else entryText? rest

end

/-- The entries of a mapping that stands for a scalar: the one that says for which. -/
def textEntry : Option String → List (Node × Node)
  | none => []
  | some text => [(.scalar .value "=", .scalar .text text)]

/-- The entries of a mapping after merging, those that are merged in and its own; or none if
something is to be merged that is no mapping. -/
abbrev Merged := Option (List (Node × Node) × List (Node × Node))

/-- All entries after merging. Those of its own come last, so that they win. -/
def Merged.all? (merged : Merged) : Option (List (Node × Node)) :=
  merged.map fun (brought, own) => brought ++ own

mutual

/-- A node in which all merges are done; a mapping whose merge fails is marked. Only what
becomes a mapping or a set is merged, and no member of a sequence of pairs. A mapping that stands
for a scalar keeps only what says for which. -/
def Node.merge (inPairs : Bool) : Node → Node
  | .scalar tag text => .scalar tag text
  | .sequence tag items => .sequence tag (mergeItems (tag = .pairs) items)
  | .mapping tag entries =>
    if inPairs then .mapping tag (mergeEach entries)
    else
      match tag with
      | .mapping | .set =>
        match (mergeEntries entries).all? with
        | some entries => .mapping tag entries
        | none => .mapping .unmergeable []
      | tag => .mapping tag (textEntry (entryText? entries))

/-- Does the merges in the members of a sequence. -/
def mergeItems (inPairs : Bool) : List Node → List Node
  | [] => []
  | node :: rest => node.merge inPairs :: mergeItems inPairs rest

/-- Does the merges in the keys and values of a mapping. -/
def mergeEach : List (Node × Node) → List (Node × Node)
  | [] => []
  | (key, value) :: rest => (key.merge false, value.merge false) :: mergeEach rest

/-- Does the merges of a mapping and those in its keys and values. -/
def mergeEntries : List (Node × Node) → Merged
  | [] => some ([], [])
  | (key, value) :: rest =>
    if key.isMergeKey then do
      let first ← broughtBy value
      let (brought, own) ← mergeEntries rest
      return (first ++ brought, own)
    else do
      let (brought, own) ← mergeEntries rest
      return (brought, ((key.merge false).plainKey, value.merge false) :: own)

/-- The entries that a merge of a node brings in, whatever its tag is. -/
def broughtBy : Node → Option (List (Node × Node))
  | .mapping _ entries => (mergeEntries entries).all?
  | .sequence _ items => broughtByAll items
  | .scalar _ _ => none

/-- The entries of all mappings of a list, those of the last mapping first. -/
def broughtByAll : List Node → Option (List (Node × Node))
  | [] => some []
  | .mapping _ entries :: rest => do
    let first ← (mergeEntries entries).all?
    return (← broughtByAll rest) ++ first
  | _ :: _ => none

end

/-! ## Values -/

/-- A value, or a problem with its depth. -/
abbrev Outcome (α : Type) := Except (Nat × Problem) α

/-- Two outcomes together; of two problems the less deep one counts, or else the first. -/
def Outcome.both {α β : Type} : Outcome α → Outcome β → Outcome (α × β)
  | .ok a, .ok b => .ok (a, b)
  | .error p, .ok _ => .error p
  | .ok _, .error q => .error q
  | .error p, .error q => .error (if q.1 < p.1 then q else p)

/-- Refuses a node at a depth. -/
def Outcome.malformed {α : Type} (depth : Nat) (part : Part) : Outcome α :=
  .error (depth, .malformed part)

/-- The value of a node that is no collection. -/
def Node.scalarValue (depth : Nat) (node : Node) : Outcome Value :=
  match node.tag, node.scalarText? with
  | .other _, _ => .malformed depth .tag
  | .moment, some text =>
    match node with
    | .mapping _ _ => .error (depth, .momentOfMapping)
    | _ => (Scalar.moment text).mapError fun problem => (depth, problem)
  | tag, some text => (Scalar.value tag text).mapError fun problem => (depth, problem)
  | _, none => .malformed depth .tag

/-- Whether the value of a node is a collection, which cannot be a key. -/
def Node.isCollection (node : Node) : Bool :=
  match node.tag with
  | .sequence | .mapping | .set | .pairs | .unmergeable => true
  | _ => false

mutual

/-- The value of a node at a depth. -/
def Node.value (depth : Nat) : Node → Outcome Value
  | .scalar tag text =>
    match tag with
    | .sequence | .mapping | .set | .pairs => .malformed (depth + 1) .tag
    | tag => (Node.scalar tag text).scalarValue depth
  | .sequence tag items =>
    match tag with
    | .sequence => (itemValues (depth + 1) items).map .list
    | .pairs => (pairValues (depth + 1) items).map .list
    | .mapping | .set => .malformed (depth + 1) .tag
    | _ => .malformed depth .tag
  | .mapping tag entries =>
    match tag with
    | .mapping => (entryValues (depth + 1) entries).map fun pairs => .map (Mapping.ofPairs pairs)
    | .set =>
      (entryValues (depth + 1) entries).map fun pairs =>
        .set ((Mapping.ofPairs pairs).map (·.1))
    | .sequence | .pairs => .malformed (depth + 1) .tag
    | .unmergeable => .malformed (depth + 1) .merge
    | tag => (Node.mapping tag entries).scalarValue depth

/-- The values of the members of a sequence. -/
def itemValues (depth : Nat) : List Node → Outcome (List Value)
  | [] => .ok []
  | node :: rest =>
    ((node.value depth).both (itemValues depth rest)).map fun (item, more) => item :: more

/-- The values of the members of a sequence of pairs: each is a mapping with one entry. -/
def pairValues (depth : Nat) : List Node → Outcome (List Value)
  | [] => .ok []
  | .mapping _ [(key, value)] :: rest =>
    (((key.value depth).both (value.value depth)).both (pairValues depth rest)).map
      fun ((key, value), more) => .tuple [key, value] :: more
  | _ :: _ => .malformed depth .tag

/-- The values of the entries of a mapping. A collection cannot be a key. -/
def entryValues (depth : Nat) : List (Node × Node) → Outcome (List (Value × Value))
  | [] => .ok []
  | (key, value) :: rest =>
    let key := if key.isCollection then .malformed depth .key else key.value depth
    ((key.both (value.value depth)).both (entryValues depth rest)).map
      fun (entry, more) => entry :: more

end

/-- The value of the document of a text, null if there is none. -/
def load (text : String) : Except Problem Value := do
  match ← Node.ofTokens? (← tokenize text) with
  | none => return .null
  | some node => ((node.merge false).value 0).mapError (·.2)

end Branchwork.Yaml
