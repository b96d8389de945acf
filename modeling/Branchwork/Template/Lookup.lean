import Branchwork.Number.Literal
import Branchwork.Text.Digit
import Branchwork.Value.Basic

/-!
# Looking up a field

A field is a path of parts with points between them. A part leads from a mapping to the value under
it and from a list to the member with that index; everything else, and what is not there, leads to
null. An index is written in decimal digits of any script.
-/

namespace Branchwork.Template

/-- The parts of a field. -/
def partsOf : List Char → List (List Char)
  | [] => [[]]
  | c :: rest =>
    if c = '.' then [] :: partsOf rest
    else
      match partsOf rest with
      | first :: more => (c :: first) :: more
      | [] => [[c]]

/-- Why an index cannot be read, though it consists of digits. -/
structure IndexProblem where
  part : String
  problem : Literal.IntProblem
deriving DecidableEq, Repr

/-- The problem in words. -/
def IndexProblem.message (p : IndexProblem) : String := p.problem.message 10 p.part

/-- Follows one part. -/
def step (current : Value) (part : List Char) : Except IndexProblem Value :=
  match current with
  | .map entries => .ok ((Mapping.find? entries (String.ofList part)).getD .null)
  | .list items =>
    if part.isEmpty || !part.all Text.isAnyDigit then .ok .null
    else
      match Literal.int? 10 part with
      | .error problem => .error ⟨String.ofList part, problem⟩
      | .ok i => .ok ((items[i.toNat]?).getD .null)
  | _ => .ok .null

/-- Follows parts as long as they lead on. -/
def follow (current : Value) : List (List Char) → Except IndexProblem Value
  | [] => .ok current
  | part :: more =>
    match step current part with
    | .error problem => .error problem
    | .ok next => follow next more

/-- The value that a field leads to. -/
def lookup (data : Value) (field : String) : Except IndexProblem Value :=
  follow data (partsOf field.toList)

end Branchwork.Template
