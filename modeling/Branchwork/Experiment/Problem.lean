import Branchwork.Yaml.Problem

/-!
# What can be wrong with an experiment

One constructor for each reason to refuse the description of an experiment. The place of an edge is
given by the text that leads to it, such as `tree['a'][0]`.
-/

namespace Branchwork.Experiment

/-- A reason to refuse a description. -/
inductive Problem where
  | emptyInput (identifier : String)
  | unsupportedWildcards (identifier : String) (found : List Char)
  | noArrow (place text : String)
  | edgeShape (place : String)
  | noOutput (place : String)
  | badStages (place : String)
  | badMaterialize (place : String)
  | treeShape
  | noEdges (key : String)
  | badYaml
  | badScalar (problem : Yaml.Problem)
  | overlong
  | shape
  | noInputs
  | noTree
  | badInputs
  | badFlags
  | inputOutsideTree (identifier : String)
deriving DecidableEq, Repr

/-- The reason that lies in a text which cannot be loaded. -/
def Problem.ofYaml : Yaml.Problem → Problem
  | .malformed _ => .badYaml
  | problem => .badScalar problem

/-- The word for the kind of a reason. -/
def Problem.kind : Problem → String
  | .badScalar problem => problem.kind
  | .overlong => "ValueError"
  | _ => "ParseError"

/-- A reason in words. -/
def Problem.message : Problem → String
  | .emptyInput identifier => s!"Empty input identifier: '{identifier}'"
  | .unsupportedWildcards identifier found =>
    let characters := String.ofList found
    s!"Input '{identifier}' uses unsupported glob characters {characters}; " ++
      "only '*' is a wildcard"
  | .noArrow place text => s!"Edge at {place} must look like 'stages -> output', got '{text}'"
  | .edgeShape place => s!"Edge at {place} must be a mapping or a 'stages -> output' string"
  | .noOutput place => s!"Edge at {place} missing required 'output' field"
  | .badStages place => s!"Edge at {place} has invalid 'stages': expected a list of names"
  | .badMaterialize place => s!"Edge at {place} has non-boolean 'materialize'"
  | .treeShape => "Experiment 'tree' must be a mapping of identifiers to edge lists"
  | .noEdges key => s!"Tree node '{key}' must have at least one edge"
  | .badYaml => "Invalid YAML"
  | .badScalar problem => problem.message
  | .overlong => DigitLimit.writeMessage
  | .shape => "Experiment must be a YAML mapping"
  | .noInputs => "Experiment missing required 'inputs' field"
  | .noTree => "Experiment missing required 'tree' field"
  | .badInputs => "Experiment 'inputs' must be a list of identifiers"
  | .badFlags => "Experiment 'flags' must be a mapping"
  | .inputOutsideTree identifier => s!"Input '{identifier}' has no edges in 'tree'"

end Branchwork.Experiment
