import Branchwork.Console.Action
import Branchwork.Console.Style
import Branchwork.Text.Quoted

/-!
# Markup

Texts for the console may hold tags in brackets, such as `[bold]` and `[/bold]`, which say how the
text between them looks. A tag starts with a lower-case letter or one of `#`, `/` and `@`. A
backslash in front of a tag makes it ordinary text, and two backslashes stand for one; in front of
any other bracket one backslash is dropped.

A closing tag closes the last open tag whose name has the same normal form. A tag that starts with
`@` has an action as its parameters, which must have the form of one when the tag is closed.

`Markup.escape` writes a text so that it holds no tags. `Markup.plain` gives what is seen of a
text, without its tags, and refuses closing tags that close nothing.
-/

namespace Branchwork.Markup

/-- What can be wrong with a text. -/
inductive Problem where
  | unmatched (tag : String) (position : Nat)
  | nothingToClose (position : Nat)
  | action (literal parameters : String) (problem : Console.Action.Problem)
  | badNumber (text : String) (problem : Literal.IntProblem)
deriving DecidableEq, Repr

/-- The word for the kind of a problem. -/
def Problem.kind : Problem → String
  | .badNumber _ _ => "ValueError"
  | _ => "MarkupError"

/-- A problem in words. -/
def Problem.message : Problem → String
  | .unmatched tag position =>
    s!"closing tag '{tag}' at position {position} doesn't match any open tag"
  | .nothingToClose position => s!"closing tag '[/]' at position {position} has nothing to close"
  | .action literal parameters problem =>
    s!"error parsing {quoteText literal} in {quoteText parameters}; {problem.message}"
  | .badNumber text problem => problem.message 10 text

/-- A part of a text: plain text, or the inside of a tag with its place. -/
inductive Piece where
  | plain (text : List Char)
  | tag (position : Nat) (inside : List Char)
deriving DecidableEq, Repr

/-- A character that a tag can start with. -/
def isTagStart (c : Char) : Bool := ('a' ≤ c && c ≤ 'z') || c = '#' || c = '/' || c = '@'

/-- The inside of the tag at the front of a text. -/
def tagInside? : List Char → Option (List Char)
  | '[' :: rest =>
    let inside := rest.takeWhile fun c => c ≠ ']' && c ≠ '['
    if inside.head?.any isTagStart && (rest.drop inside.length).head? = some ']' then some inside
    else none
  | _ => none

/-- The tag at the front of a text behind any number of backslashes: their count, and its
inside. -/
def backslashedTag? (s : List Char) : Option (Nat × List Char) :=
  let count := (s.takeWhile (· = '\\')).length
  (tagInside? (s.drop count)).map fun inside => (count, inside)

/-- Adds a character to the plain text in front of pieces. -/
def consPlain (c : Char) : List Piece → List Piece
  | .plain text :: rest => .plain (c :: text) :: rest
  | pieces => .plain [c] :: pieces

/-- The pieces that a tag behind backslashes stands for. -/
def tagPieces (position count : Nat) (inside : List Char) : List Piece :=
  let kept := if count < 2 then [] else [.plain (List.replicate (count / 2) '\\')]
  kept ++ if count % 2 = 1 then [.plain ('[' :: (inside ++ [']']))] else
    [.tag (position + count) inside]

/-- The pieces of a text from a position on; the next `skip` characters belong to a tag already
read. Plain text between two tags is one piece. -/
def piecesFrom (position : Nat) : (skip : Nat) → List Char → List Piece
  | _, [] => []
  | skip + 1, _ :: rest => piecesFrom (position + 1) skip rest
  | 0, c :: rest =>
    match backslashedTag? (c :: rest) with
    | some (count, inside) =>
      .plain [] :: (tagPieces position count inside ++
        .plain [] :: piecesFrom (position + 1) (count + inside.length + 1) rest)
    | none => consPlain c (piecesFrom (position + 1) 0 rest)

/-- Drops one backslash in front of every bracket. -/
def dropBackslashes : List Char → List Char
  | '\\' :: '[' :: rest => '[' :: dropBackslashes rest
  | c :: rest => c :: dropBackslashes rest
  | [] => []

/-- A tag: its name, and the parameters behind an equals sign. -/
structure Tag where
  name : String
  parameters : Option String
deriving DecidableEq, Repr

/-- The tag of a text in brackets. -/
def Tag.ofInside (inside : List Char) : Tag :=
  let name := inside.takeWhile (· ≠ '=')
  ⟨String.ofList name, (inside.drop name.length).tail?.map String.ofList⟩

/-- The normal form of the name of a tag. -/
def normalName (name : String) : Except Problem String :=
  match Console.Style.normalName name with
  | .ok name => .ok name
  | .error (.badNumber text problem) => .error (.badNumber text problem)
  | .error .notAStyle => .ok name

/-- Checks the action of a tag that is closed. -/
def Tag.checkAction (t : Tag) : Except Problem Unit :=
  match t.parameters with
  | none | some "" => .ok ()
  | some parameters =>
    if t.name.startsWith "@" then
      let literal := Console.Action.literalOf (Text.trim parameters.toList)
      (Console.Action.checkLiteral literal).mapError (.action (String.ofList literal) parameters)
    else .ok ()

/-- Takes the tag that a closing tag closes off the open tags, the last of which comes first. -/
def closing (inside : List Char) (position : Nat) (name : String) (opened : List Tag) :
    Except Problem (Tag × List Tag) :=
  if name.isEmpty then
    match opened with
    | [] => .error (.nothingToClose position)
    | t :: outer => .ok (t, outer)
  else do
    let name ← normalName name
    match opened.find? (·.name = name) with
    | some t => .ok (t, opened.eraseP (·.name = name))
    | none => .error (.unmatched (String.ofList ('[' :: (inside ++ [']']))) position)

/-- The plain text of pieces; `opened` holds the open tags, the last one first. -/
def plainOf (opened : List Tag) : List Piece → Except Problem (List Char)
  | [] => .ok []
  | .plain text :: rest => (plainOf opened rest).map (dropBackslashes text ++ ·)
  | .tag position inside :: rest => do
    let t := Tag.ofInside inside
    match t.name.toList with
    | '/' :: name =>
      let (closed, outer) ← closing inside position (trimText (String.ofList name)) opened
      closed.checkAction
      plainOf outer rest
    | _ =>
      let name ← normalName t.name
      plainOf (⟨name, t.parameters⟩ :: opened) rest

/-- Checks the look that a tag gives to its text: its name and its parameters together. -/
def Tag.checkLook (t : Tag) : Except Problem Unit :=
  match t.parameters with
  | none => .ok ()
  | some parameters =>
    match normalName t.name with
    | .error problem => .error problem
    | .ok name => (normalName s!"{name} {parameters}").map fun _ => ()

/-- Checks the look of all tags that open. -/
def checkLooks (pieces : List Piece) : Except Problem Unit :=
  pieces.forM fun
    | .plain _ => .ok ()
    | .tag _ inside =>
      let t := Tag.ofInside inside
      if t.name.startsWith "/" then .ok () else t.checkLook

/-- What is seen of a text with tags. -/
def plain (s : String) : Except Problem String :=
  if s.contains '[' then do
    let pieces := piecesFrom 0 0 s.toList
    let text ← plainOf [] pieces
    checkLooks pieces
    return String.ofList text
  else .ok s

/-- Escapes the tags of a text; the next `skip` characters belong to a tag already read. -/
def escapeFrom : (skip : Nat) → List Char → List Char
  | _, [] => []
  | skip + 1, c :: rest => c :: escapeFrom skip rest
  | 0, c :: rest =>
    match backslashedTag? (c :: rest) with
    | some (count, inside) =>
      List.replicate (count + 1) '\\' ++ c :: escapeFrom (count + inside.length + 1) rest
    | none => c :: escapeFrom 0 rest

/-- A text written so that it holds no tags. A single backslash at its end is doubled, so that it
does not touch a tag that follows. -/
def escape (s : String) : String :=
  let escaped := escapeFrom 0 s.toList
  let ends := escaped.reverse.takeWhile (· = '\\')
  String.ofList (if ends.length = 1 then escaped ++ ['\\'] else escaped)

end Branchwork.Markup
