import Branchwork.Settings.Reserved
import Branchwork.Template.Lookup
import Branchwork.Template.Variable

/-!
# Rendering templates

A template is rendered for a value: `data` variables stand for fields of the value, and what is not
there renders as nothing; `config` variables stand for options, which have to be there. Variables
of other namespaces stay as they are written, and so does all text between the variables.
-/

namespace Branchwork.Template

/-- Why a template cannot be rendered. -/
inductive Problem where
  | noSettings (written : String)
  | noOption (name : String)
  | index (problem : IndexProblem)
  | overlong
deriving DecidableEq, Repr

/-- A reason in words. -/
def Problem.message : Problem → String
  | .noSettings written => s!"No configuration available for {written}"
  | .noOption name => s!"Config option not found: {name}"
  | .index problem => problem.message
  | .overlong => DigitLimit.writeMessage

/-- The word for the kind of a reason. -/
def Problem.kind : Problem → String
  | .index _ | .overlong => "ValueError"
  | _ => "TemplateError"

/-- The two namespaces that variables are looked up in. -/
inductive Space where
  | data
  | config
deriving DecidableEq, Repr

/-- The namespace of a variable. -/
def Variable.space? (v : Variable) : Option Space :=
  if v.space = "data".toList then some .data
  else if v.space = "config".toList then some .config
  else none

/-- The option that a field names; null counts as no option. -/
def option? (settings : Settings) (field : String) : Option Value :=
  match settings.option? field with
  | some .null | none => none
  | some v => some v

/-- What is wrong with one variable of a template. -/
def check (settings : Option Settings) (v : Variable) : Option Problem :=
  if v.space? = some .config then
    let written := String.ofList v.written
    match settings with
    | none => some (.noSettings written)
    | some s =>
      if (option? s (String.ofList v.field)).isSome then none else some (.noOption written)
  else none

/-- What is wrong with the variables of a template, in order. -/
def validate (settings : Option Settings) (template : String) : List Problem :=
  (variablesOf template).filterMap (check settings)

/-- What a value renders as, unless it is overlong. -/
def renderValue (v : Value) : Except Problem (List Char) :=
  if v.isOverlong then .error .overlong else .ok v.rendered.toList

/-- What a variable renders as. -/
def Variable.render (settings : Option Settings) (data : Value) (v : Variable) :
    Except Problem (List Char) :=
  let field := String.ofList v.field
  match v.space? with
  | none => .ok v.written
  | some .data =>
    match lookup data field with
    | .ok found => renderValue found
    | .error problem => .error (.index problem)
  | some .config =>
    match settings with
    | none => .error (.noSettings (String.ofList v.written))
    | some s =>
      match option? s field with
      | some found => renderValue found
      | none => .error (.noOption ("config." ++ field))

/-- What pieces of a template render as. -/
def renderPieces (settings : Option Settings) (data : Value) :
    List Piece → Except Problem (List Char)
  | [] => .ok []
  | .char c :: rest => (renderPieces settings data rest).map (c :: ·)
  | .hole v :: rest =>
    match v.render settings data with
    | .error problem => .error problem
    | .ok text => (renderPieces settings data rest).map (text ++ ·)

/-- A template rendered for a value. -/
def render (settings : Option Settings) (data : Value) (template : String) :
    Except Problem String :=
  (renderPieces settings data (pieces template)).map String.ofList

end Branchwork.Template
