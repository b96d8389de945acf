/-!
# Paths

A path is a list of component names below an anchor: the place where the path is used, or the
root. Empty components and `.` are dropped when a path is read; `..` is kept, since only a file
system can say where it leads.
-/

namespace Branchwork

/-- Where a path starts. Two leading slashes are a root of their own. -/
inductive Path.Anchor where
  | here
  | root
  | doubleRoot
deriving DecidableEq, Repr

/-- A path in its normal form. -/
structure Path where
  anchor : Path.Anchor
  parts : List String
deriving DecidableEq, Repr

namespace Path

/-- The text that stands for an anchor. -/
def Anchor.text : Anchor → String
  | .here => ""
  | .root => "/"
  | .doubleRoot => "//"

/-- The anchor that a text starts with. -/
def anchorOf : List Char → Anchor
  | '/' :: '/' :: '/' :: _ => .root
  | '/' :: '/' :: _ => .doubleRoot
  | '/' :: _ => .root
  | _ => .here

/-- The components of a text, with the empty ones. -/
def splitSlashes : List Char → List (List Char)
  | [] => [[]]
  | c :: rest =>
    if c = '/' then [] :: splitSlashes rest
    else
      match splitSlashes rest with
      | first :: more => (c :: first) :: more
      | [] => [[c]]

/-- Reads a path. -/
def ofText (s : String) : Path :=
  { anchor := anchorOf s.toList
    parts := ((splitSlashes s.toList).filter fun part => part ≠ [] && part ≠ ['.']).map
      String.ofList }

/-- The path of the place where it is used. -/
def here : Path := ⟨.here, []⟩

instance : Inhabited Path := ⟨here⟩

/-- The text of a path; the path without components is written `.`. -/
def text (p : Path) : String :=
  if p.anchor = .here && p.parts.isEmpty then "."
  else p.anchor.text ++ "/".intercalate p.parts

/-- Whether a path starts at the root. -/
def isAbsolute (p : Path) : Bool := p.anchor ≠ .here

/-- The second path as seen from the first. -/
def join (p q : Path) : Path :=
  if q.isAbsolute then q else { p with parts := p.parts ++ q.parts }

/-- The path that further names lead to. -/
def below (p : Path) (names : List String) : Path := { p with parts := p.parts ++ names }

/-- The path without its last component. -/
def parent (p : Path) : Path := { p with parts := p.parts.dropLast }

/-- The last component, empty if there is none. -/
def name (p : Path) : String := p.parts.getLast?.getD ""

/-- The name without its last extension. A point at the beginning or the end of a name starts no
extension. -/
def stemOf (name : List Char) : List Char :=
  let extension := name.reverse.takeWhile (· ≠ '.')
  let base := name.take (name.length - extension.length - 1)
  if extension.isEmpty || base.isEmpty || !name.contains '.' then name else base

/-- The name of a path without its last extension. -/
def stem (p : Path) : String := String.ofList (stemOf p.name.toList)

/-- The components with every `..` taken back, as far as the root. -/
def collapse (parts : List String) : List String :=
  parts.foldl (fun done part => if part = ".." then done.dropLast else done ++ [part]) []

end Path

end Branchwork
