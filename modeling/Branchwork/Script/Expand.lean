import Branchwork.Script.Arithmetic
import Branchwork.Script.Builtin
import Branchwork.Script.Field
import Branchwork.Script.Grammar

/-!
# What words stand for

A word of a command stands for fields: its parameters get their values, commands in it their output,
and sums their results; what comes of that is split where it is not quoted, and patterns in it are
replaced by the paths that they find. In other places a word stands for one text or for a pattern.

How the output of a command is taken is given as `capture`.
-/

namespace Branchwork.Script.Expand

open Sh

/-- The text between arguments that are written as one text. -/
def joint : Sh String := do
  match ← valueOf? "IFS" with
  | none => return " "
  | some separators => return String.ofList (separators.toList.take 1)

/-- The value of a parameter, if it is set. -/
def value? (name : String) : Sh (Option String) := do
  let s ← get
  match name with
  | "@" | "*" =>
    let joint ← joint
    return some (joint.intercalate s.arguments)
  | "#" => return some (toString s.arguments.length)
  | "?" => return some (toString s.status)
  | "$" => return some Builtin.ownNumber
  | "!" => return s.behind.map fun _ => Builtin.behindNumber
  | "-" => return some (String.ofList (Builtin.switchLetters.filter s.switches.contains))
  | "0" => return some s.name
  | _ =>
    match Utility.nat? name with
    | some n => return if n = 0 then some s.name else s.arguments[n - 1]?
    | none => valueOf? name

/-- The value of a parameter; one that is not set is empty, or ends the script if that is asked
for. -/
def value (name : String) : Sh String := do
  match ← value? name with
  | some text => return text
  | none =>
    if ← isOn 'u' then abort s!"{name}: parameter not set"
    return ""

/-- The marks for all arguments where fields are made: each one is a field of its own. -/
def argumentMarks (quoted : Bool) (arguments : List String) : List Mark :=
  let one (argument : String) :=
    (if quoted then [Mark.solid] else []) ++ Mark.ofText quoted (!quoted) argument.toList
  (arguments.map one).intersperse [Mark.gap] |>.flatten

/-- The marks for a parameter. -/
def valueMarks (splits : Bool) (name : String) (quoted : Bool) : Sh (List Mark) := do
  if splits && (name = "@" || (name = "*" && !quoted)) then
    return argumentMarks quoted (← get).arguments
  else return Mark.ofText quoted (splits && !quoted) (← value name).toList

/-- Whether quotes hold nothing but all arguments, which then may be no field at all. The parts
behind the opening quote are given. -/
def isOnlyAll : Word → Bool
  | .parameter "@" .value true :: rest =>
    match rest with
    | [] | .quotes :: _ | .char _ false :: _ | .home :: _ => true
    | .parameter _ _ quoted :: _ | .output _ quoted :: _ | .number _ quoted :: _ => !quoted
    | _ => false
  | _ => false

/-- The bytes of a command's output that a word takes: those in front of the last line ends. -/
def taken (text : List Char) : List Char :=
  ((text.filter (· ≠ '\x00')).reverse.dropWhile (· = '\n')).reverse

section

variable (capture : Command → Sh (List Char))

mutual

/-- The marks for a part of a word. Fields are made if `splits`, and characters of the word itself
may separate them if `bare`. -/
def part (splits bare : Bool) : Part → Sh (List Mark)
  | .char c quoted => return [.char c quoted (splits && bare && !quoted)]
  | .quotes => return [.solid]
  | .home => do
    match ← valueOf? "HOME" with
    | some home => return Mark.ofText true false home.toList
    | none => return [.char '~' false false]
  | .misspelt => abort "Bad substitution"
  | .output command quoted => do
    return Mark.ofText quoted (splits && !quoted) (taken (← capture command))
  | .number expression quoted => do
    let text := String.ofList (Mark.plain (← word false false expression))
    let s ← get
    match Arithmetic.evaluate (fun name => (s.vars.lookup name).bind (·.value)) text with
    | .error problem => abort (problem.message text)
    | .ok (n, assigned) =>
      for (name, value) in assigned do setVariable name (toString value)
      return Mark.ofText quoted (splits && !quoted) (toString n).toList
  | .parameter name use quoted => parameter splits name quoted use

/-- The marks for a parameter as it is used. -/
def parameter (splits : Bool) (name : String) (quoted : Bool) : Use → Sh (List Mark)
  | .value => valueMarks splits name quoted
  | .length => do
    return Mark.ofText quoted false (toString (← value name).length).toList
  | .default orEmpty other => do
    if isThere orEmpty (← value? name) then valueMarks splits name quoted
    else word splits (!quoted) other
  | .assign orEmpty other => do
    if isThere orEmpty (← value? name) then valueMarks splits name quoted
    else
      let text := Mark.plain (← word false false other)
      setVariable name (String.ofList text)
      return Mark.ofText quoted (splits && !quoted) text
  | .demand orEmpty other => do
    if isThere orEmpty (← value? name) then valueMarks splits name quoted
    else
      let text := Mark.plain (← word false false other)
      let reason :=
        if !other.isEmpty then String.ofList text
        else if orEmpty then "parameter not set or null"
        else "parameter not set"
      abort s!"{name}: {reason}"
  | .instead orEmpty other => do
    if isThere orEmpty (← value? name) then word splits (!quoted) other else return []
  | .cut atEnd longest pattern => do
    let text ← value name
    let glyphs := Mark.glyphs (← word false false pattern)
    return Mark.ofText quoted (splits && !quoted) (Pattern.cut atEnd longest glyphs text.toList)
where
  /-- Whether a parameter has a value that counts. -/
  isThere (orEmpty : Bool) (value : Option String) : Bool :=
    value.any fun text => !orEmpty || text ≠ ""

/-- The marks for a word. -/
def word (splits bare : Bool) : Word → Sh (List Mark)
  | [] => return []
  | p :: rest => do
    let first ←
      match p with
      | .quotes => pure (if splits && isOnlyAll rest then [] else [.solid])
      | p => part splits bare p
    return first ++ (← word splits bare rest)

end

/-- The text that a word stands for where no fields are made. -/
def text (w : Word) : Sh String := do
  return String.ofList (Mark.plain (← word capture false false w))

/-- The pattern that a word stands for. -/
def pattern (w : Word) : Sh (List Glyph) := return Mark.glyphs (← word capture false false w)

/-- The fields that a word stands for. -/
def fields (w : Word) : Sh (List String) := do
  let marks ← word capture true false w
  let s ← get
  let paths (glyphs : List Glyph) : List String :=
    let plain := String.ofList (glyphs.map (·.1))
    if s.switches.contains 'f' || !Pattern.isPattern glyphs then [plain]
    else
      match Pattern.find s.files s.directory glyphs with
      | [] => [plain]
      | found => found
  return (Mark.fields (← Builtin.separators) marks).flatMap paths

/-- The fields that a word of an operation stands for that defines variables: a definition is one
field, and tildes in it stand for the home directory. -/
def definitionFields (w : Word) : Sh (List String) := do
  match definition? w with
  | some (name, value) => return [name ++ "=" ++ (← text capture (markTildes true true value))]
  | none => fields capture w

end

end Branchwork.Script.Expand
