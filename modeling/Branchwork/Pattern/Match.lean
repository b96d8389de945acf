/-!
# Patterns and what their wildcards capture

A pattern is a text in which every `*` is a wildcard and every other character stands for itself.
A wildcard takes any run of characters without a line break, and the first wildcard takes the
longest run that lets the rest of the pattern match, then the second, and so on.

* `captures?`: the runs taken when a pattern matches a whole name, where one line break at the
  very end of the name may be left over.
* `leading?`: the runs taken when a pattern matches the beginning of a name, with what is left.
-/

namespace Branchwork.Pattern

/-- The character that stands for any run. -/
def wildcard : Char := '*'

/-- What a match takes: the run of each wildcard, in order, and the text after the match. -/
structure Capture where
  runs : List (List Char)
  rest : List Char
deriving DecidableEq, Repr

/-- The longest run without a line break after which `next` matches, with that match. -/
def longestRun (next : List Char → Option Capture) : List Char → Option (List Char × Capture)
  | [] => (next []).map fun found => ([], found)
  | c :: s =>
    match if c = '\n' then none else longestRun next s with
    | some (run, found) => some (c :: run, found)
    | none => (next (c :: s)).map fun found => ([], found)

/-- Matches a pattern at the beginning of a text; `accept` says which texts may be left over. -/
def matchFrom (accept : List Char → Bool) : List Char → List Char → Option Capture
  | [], s => if accept s then some ⟨[], s⟩ else none
  | p :: ps, s =>
    if p = wildcard then
      (longestRun (matchFrom accept ps) s).map fun (run, found) =>
        { found with runs := run :: found.runs }
    else
      match s with
      | c :: s' => if p = c then matchFrom accept ps s' else none
      | [] => none

/-- What a match of a whole name may leave over: nothing, or one line break. -/
def isNameEnd (s : List Char) : Bool := s = [] || s = ['\n']

/-- The match of a pattern at the beginning of a text. -/
def leading? (pattern text : List Char) : Option Capture :=
  matchFrom (fun _ => true) pattern text

/-- The runs that the wildcards of a pattern take from a name that it matches. -/
def captures? (pattern name : String) : Option (List String) :=
  (matchFrom isNameEnd pattern.toList name.toList).map (·.runs.map String.ofList)

/-- Whether a pattern matches a name. -/
def matchesName (pattern name : String) : Bool := (captures? pattern name).isSome

end Branchwork.Pattern
