import Branchwork.FileSystem.Glob
import Branchwork.Script.Shell

/-!
# Patterns of a shell

A pattern is a text in which some characters are quoted; those stand for themselves. It is matched
against texts, it cuts texts at one end, and it finds files.
-/

namespace Branchwork.Script

/-- A character, and whether it is quoted. -/
abbrev Glyph := Char × Bool

namespace Pattern

/-- Whether a glyph is a character that is not quoted. -/
def isBare (c : Char) (g : Glyph) : Bool := g = (c, false)

/-- Whether glyphs hold anything that does not stand for itself. -/
def isPattern (glyphs : List Glyph) : Bool :=
  glyphs.any fun (c, quoted) => !quoted && (c = '*' || c = '?' || c = '[')

/-- The ranges of the named classes of characters. -/
def classes : List (String × List (Char × Char)) :=
  let upper := ('A', 'Z')
  let lower := ('a', 'z')
  let digit := ('0', '9')
  let marks := [('!', '/'), (':', '@'), ('[', '\x60'), ('\x7b', '~')]
  [("alpha", [upper, lower]), ("digit", [digit]), ("alnum", [upper, lower, digit]),
    ("upper", [upper]), ("lower", [lower]), ("space", [('\t', '\r'), (' ', ' ')]),
    ("blank", [(' ', ' '), ('\t', '\t')]), ("punct", marks), ("print", [(' ', '~')]),
    ("graph", [('!', '~')]), ("xdigit", [digit, ('A', 'F'), ('a', 'f')]),
    ("cntrl", [('\x00', '\x1f'), ('\x7f', '\x7f')])]

/-- The class whose name stands at the front, with the count of its glyphs. -/
def class? (glyphs : List Glyph) : Option (List (Char × Char) × Nat) :=
  let text := glyphs.map (·.1)
  if text.take 2 = ['[', ':'] then
    let name := (text.drop 2).takeWhile Char.isAlpha
    if (text.drop (2 + name.length)).take 2 = [':', ']'] then
      (classes.lookup (String.ofList name)).map fun ranges => (ranges, name.length + 4)
    else none
  else none

/-- The ranges in brackets, with the glyphs behind them; none if the brackets are not closed. A
closing bracket in the first place is a character of the set. -/
def ranges? (isFirst : Bool) : Nat → List Glyph → Option (List (Char × Char) × List Glyph)
  | 0, _ | _, [] => none
  | fuel + 1, (c, quoted) :: rest =>
    if c = ']' && !quoted && !isFirst then some ([], rest)
    else
      let glyphs := (c, quoted) :: rest
      match if quoted then none else class? glyphs with
      | some (found, length) =>
        (ranges? false fuel (glyphs.drop length)).map fun (more, rest) => (found ++ more, rest)
      | none =>
        match rest with
        | ('-', false) :: (last, lastQuoted) :: behind =>
          if last = ']' && !lastQuoted then
            (ranges? false fuel rest).map fun (more, rest) => ((c, c) :: more, rest)
          else (ranges? false fuel behind).map fun (more, rest) => ((c, last) :: more, rest)
        | _ => (ranges? false fuel rest).map fun (more, rest) => ((c, c) :: more, rest)

/-- The set that stands behind an opening bracket, with the glyphs behind it. A mark in the first
place asks for the characters that are not in it. -/
def set? (mark : Char) (glyphs : List Glyph) : Option (FileSystem.GlobItem × List Glyph) :=
  let negated := glyphs.head?.any (isBare mark)
  let inside := if negated then glyphs.drop 1 else glyphs
  (ranges? true (inside.length + 1) inside).map fun (ranges, rest) => (.set negated ranges, rest)

/-- The items of a pattern. -/
def items : Nat → List Glyph → List FileSystem.GlobItem
  | 0, _ | _, [] => []
  | fuel + 1, (c, quoted) :: rest =>
    if quoted then .char c :: items fuel rest
    else if c = '*' then .run :: items fuel rest
    else if c = '?' then .any :: items fuel rest
    else
      match if c = '[' then set? '!' rest else none with
      | some (set, rest) => set :: items fuel rest
      | none => .char c :: items fuel rest

/-- Whether a pattern matches a text. -/
def isMatch (glyphs : List Glyph) (text : List Char) : Bool :=
  FileSystem.matchesItems (items glyphs.length glyphs) text

/-- A text without what a pattern matches at one end: the longest or the shortest part. -/
def cut (atEnd longest : Bool) (glyphs : List Glyph) (text : List Char) : List Char :=
  let items := items glyphs.length glyphs
  let lengths := List.range (text.length + 1)
  let lengths := if longest then lengths.reverse else lengths
  let split (n : Nat) :=
    if atEnd then (text.drop (text.length - n), text.take (text.length - n))
    else (text.take n, text.drop n)
  (lengths.find? fun n => FileSystem.matchesItems items (split n).1).elim text fun n => (split n).2

/-! ## Files -/

/-- The parts of a pattern between slashes. -/
def components : List Glyph → List (List Glyph)
  | [] => [[]]
  | g :: rest =>
    if g.1 = '/' then [] :: components rest
    else
      match components rest with
      | first :: more => (g :: first) :: more
      | [] => [[g]]

/-- The names in a directory that a component of a pattern matches. Names that begin with a point
are matched only by a point. -/
def namesIn (fs : FileSystem) (place : Location) (component : List Glyph) : List String :=
  let all := (fs.children place).map byteText
  let all := if component.head?.any (·.1 = '.') then "." :: ".." :: all
    else all.filter fun name => name.toList.head? ≠ some '.'
  all.filter fun name => isMatch component name.toList

/-- The texts of the paths that the components of a pattern match, behind the text `walked`. -/
def paths (fs : FileSystem) (current : Location) (walked : String) :
    List (List Glyph) → List String
  | [] => []
  | [last] =>
    if isPattern last then (namesOf last).map (walked ++ ·)
    else if last.isEmpty then
      if fs.isDirectory current (.ofText (readable walked)) then [walked] else []
    else
      let path := walked ++ String.ofList (last.map (·.1))
      if (fs.stat current (.ofText (readable path))).toBool then [path] else []
  | component :: rest =>
    let names :=
      if isPattern component then namesOf component else [String.ofList (component.map (·.1))]
    names.flatMap fun name => paths fs current (walked ++ name ++ "/") rest
where
  /-- The names that a component matches behind the text `walked`. -/
  namesOf (component : List Glyph) : List String :=
    match fs.stat current (.ofText (readable walked)) with
    | .ok (place, .directory) => namesIn fs place component
    | _ => []

/-- The paths that a pattern finds, in ascending order. -/
def find (fs : FileSystem) (current : Location) (glyphs : List Glyph) : List String :=
  (paths fs current "" (components glyphs)).mergeSort fun a b => a ≤ b

end Pattern

end Branchwork.Script
