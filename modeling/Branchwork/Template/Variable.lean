/-!
# Variables in templates

A variable of a template is written `\x7bnamespace.field\x7d`: a name of ASCII letters, digits and
underscores that does not start with a digit, a point, and a field of letters, digits, underscores
and points. A template is cut into its variables and the characters between them, from left to
right; an opening brace that starts no variable is an ordinary character.
-/

namespace Branchwork.Template

/-- A variable: its namespace and the field in it. -/
structure Variable where
  space : List Char
  field : List Char
deriving DecidableEq, Repr

/-- A piece of a template: a character, or the place of a variable. -/
inductive Piece where
  | char (c : Char)
  | hole (v : Variable)
deriving DecidableEq, Repr

/-- A character of a name. -/
def isNameChar (c : Char) : Bool := c.isAlphanum || c = '_'

/-- A character of a field. -/
def isFieldChar (c : Char) : Bool := isNameChar c || c = '.'

/-- A variable as it is written. -/
def Variable.written (v : Variable) : List Char :=
  '{' :: (v.space ++ '.' :: (v.field ++ ['}']))

/-- The variable at the front of the text behind an opening brace. -/
def leadingVariable? (s : List Char) : Option Variable :=
  let space := s.takeWhile isNameChar
  match space.head?, s.dropWhile isNameChar with
  | some first, '.' :: rest =>
    let field := rest.takeWhile isFieldChar
    match rest.dropWhile isFieldChar with
    | '}' :: _ => if first.isDigit || field.isEmpty then none else some ⟨space, field⟩
    | _ => none
  | _, _ => none

/-- The pieces of a template; the next `skip` characters belong to a variable already read. -/
def piecesFrom : (skip : Nat) → List Char → List Piece
  | _, [] => []
  | skip + 1, _ :: rest => piecesFrom skip rest
  | 0, c :: rest =>
    match if c = '{' then leadingVariable? rest else none with
    | some v => .hole v :: piecesFrom (v.written.length - 1) rest
    | none => .char c :: piecesFrom 0 rest

/-- The pieces of a template, in order. -/
def pieces (template : String) : List Piece := piecesFrom 0 template.toList

/-- The variables of a template, in order. -/
def variablesOf (template : String) : List Variable :=
  (pieces template).filterMap fun
    | .hole v => some v
    | .char _ => none

end Branchwork.Template
