import Branchwork.Pattern.Match
import Branchwork.Pattern.Slug

/-!
# Output names

An output name is computed from the pattern that selected an input, the concrete key that flows
through a pipeline, and a target in which each `*` receives the next captured run. The part of the
key after the match (a split key `trace-1.json.123` has one) is kept behind the target, so two keys
split from one input keep different names.
-/

namespace Branchwork.Pattern

/-- Fills the wildcards of a target from `runs`; the last run serves every further wildcard, and
`last` serves when there is no run at all. -/
def fill (last : List Char) : List (List Char) → List Char → List Char
  | _, [] => []
  | runs, c :: target =>
    if c = wildcard then
      match runs with
      | run :: more => run ++ fill run more target
      | [] => last ++ fill last [] target
    else c :: fill last runs target

/-- The runs that a key offers to a target, and the suffix that the key keeps. A match without
wildcards offers the slug of the matched text, a key that does not match its own slug. -/
def offered (pattern key : List Char) : List (List Char) × List Char :=
  match leading? pattern key with
  | some ⟨[], rest⟩ => ([slugOf (key.take (key.length - rest.length))], rest)
  | some ⟨runs, rest⟩ => (runs, rest)
  | none => ([slugOf key], [])

/-- The output name of a key, over lists of characters. -/
def renameKey (pattern key target : List Char) : List Char :=
  let (runs, suffix) := offered pattern key
  fill [] runs target ++ suffix

/-- The output name of a key: the target with its wildcards filled, then the key's suffix. -/
def outputName (pattern key target : String) : String :=
  String.ofList (renameKey pattern.toList key.toList target.toList)

end Branchwork.Pattern
