import Branchwork.Yaml.Tag

/-!
# Nodes

The content of a document: scalars, sequences and mappings with their tags. An alias has become the
node that it repeats.
-/

namespace Branchwork.Yaml

/-- A node of a document. -/
inductive Node where
  | scalar (tag : Tag) (text : String)
  | sequence (tag : Tag) (items : List Node)
  | mapping (tag : Tag) (entries : List (Node × Node))

namespace Node

/-- The tag of a node. -/
def tag : Node → Tag
  | .scalar tag _ | .sequence tag _ | .mapping tag _ => tag

/-- The node that is read where nothing is written. -/
def empty : Node := .scalar .null ""

instance : Inhabited Node := ⟨empty⟩

end Node

end Branchwork.Yaml
