import Branchwork.Yaml.Problem

/-!
# Tokens of YAML texts

A text is first cut into tokens. Indentation becomes explicit here: a block collection is opened by
a start token where its indentation begins and closed by an end token where it ends, and the key of
a mapping is marked although only the colon behind it shows that it is one. Where a text cannot be
cut further, the last token holds the reason; it counts only if the tokens before it ask for more.
-/

namespace Branchwork.Yaml

/-- A directive in front of a document. -/
inductive Directive where
  | version (major minor : Nat)
  | handle (handle start : String)
  | other
deriving DecidableEq, Repr

/-- A token. -/
inductive Token where
  | directive (d : Directive)
  | documentStart
  | documentEnd
  | blockSequenceStart
  | blockMappingStart
  | blockEnd
  | flowSequenceStart
  | flowSequenceEnd
  | flowMappingStart
  | flowMappingEnd
  | flowEntry
  | blockEntry
  | key
  | value
  | alias (name : String)
  | anchor (name : String)
  | tag (handle : Option String) (suffix : String)
  | scalar (text : String) (isPlain : Bool)
  | unreadable (problem : Problem)
deriving DecidableEq, Repr

end Branchwork.Yaml
