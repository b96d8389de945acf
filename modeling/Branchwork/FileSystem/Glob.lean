import Branchwork.FileSystem.Basic
import Branchwork.Pattern.Match

/-!
# Finding files by a pattern

A file pattern is a relative path whose components may hold wildcards: `*` stands for any run of
characters, `?` for one character, and `[...]` for one of a set of characters. A wildcard stays
within its component; the component `**` stands for any number of directories; `..` leads back. The
names of the files that are found are relative to the directory of the search.
-/

namespace Branchwork.FileSystem

/-- Why a pattern cannot be searched for. -/
inductive GlobProblem where
  | empty
  | absolute
  | noComponents
  | onlySlash
  | badRecursion
  | files (fault : Fault)
deriving DecidableEq, Repr

/-- The word for the kind of a problem. -/
def GlobProblem.kind : GlobProblem → String
  | .empty | .badRecursion => "ValueError"
  | .absolute => "NotImplementedError"
  | .noComponents => "IndexError"
  | .onlySlash => "AttributeError"
  | .files fault => fault.reason.kind

/-- A problem in words. -/
def GlobProblem.message : GlobProblem → String
  | .empty => "Unacceptable pattern: ''"
  | .absolute => "Non-relative patterns are unsupported"
  | .noComponents => "tuple index out of range"
  | .onlySlash => "'_TerminatingSelector' object has no attribute 'select_from'"
  | .badRecursion => "Invalid pattern: '**' can only be an entire path component"
  | .files fault => fault.message

/-- Whether a text holds two wildcards side by side. -/
def hasDoubleStar : List Char → Bool
  | '*' :: '*' :: _ => true
  | _ :: rest => hasDoubleStar rest
  | [] => false

/-- An item of a component: a run of characters, any character, a character of a set, which is
given by the ranges in it, or a character that stands for itself. -/
inductive GlobItem where
  | run
  | any
  | set (negated : Bool) (ranges : List (Char × Char))
  | char (c : Char)
deriving DecidableEq, Repr

/-- The ranges that the inside of a set lists; a single character is a range of its own. -/
def rangesOf : List Char → List (Char × Char)
  | first :: '-' :: last :: rest => (first, last) :: rangesOf rest
  | c :: rest => (c, c) :: rangesOf rest
  | [] => []

/-- The inside of the set whose opening bracket stands in front of a text. A bracket that closes
the set right behind its beginning is a character of it. -/
def setInside? (s : List Char) : Option (List Char) :=
  let sign := if s.head? = some '!' then 1 else 0
  let first := if (s.drop sign).head? = some ']' then sign + 1 else sign
  let rest := (s.drop first).takeWhile (· ≠ ']')
  if first + rest.length < s.length then some (s.take (first + rest.length)) else none

/-- The set with the given inside. -/
def GlobItem.ofInside : List Char → GlobItem
  | '!' :: inside => .set true (rangesOf inside)
  | inside => .set false (rangesOf inside)

/-- The items of a component; the next `skip` characters belong to a set already read. -/
def itemsFrom : (skip : Nat) → List Char → List GlobItem
  | _, [] => []
  | skip + 1, _ :: rest => itemsFrom skip rest
  | 0, c :: rest =>
    if c = Pattern.wildcard then .run :: itemsFrom 0 rest
    else if c = '?' then .any :: itemsFrom 0 rest
    else
      match if c = '[' then setInside? rest else none with
      | some inside => .ofInside inside :: itemsFrom (inside.length + 1) rest
      | none => .char c :: itemsFrom 0 rest

/-- Whether an item that stands for one character stands for the given one. -/
def GlobItem.accepts (c : Char) : GlobItem → Bool
  | .run => false
  | .any => true
  | .set negated ranges => negated ≠ ranges.any fun (first, last) => first ≤ c && c ≤ last
  | .char d => c = d

/-- Whether items match a name. -/
def matchesItems : List GlobItem → List Char → Bool
  | [], s => s.isEmpty
  | .run :: items, s => (List.range (s.length + 1)).any fun k => matchesItems items (s.drop k)
  | item :: items, s =>
    match s with
    | c :: s => item.accepts c && matchesItems items s
    | [] => false

/-- A component of a pattern. -/
inductive GlobPart where
  | directories
  | back
  | wild (items : List GlobItem)
  | name (component : String)
deriving DecidableEq, Repr

/-- Reads a component. -/
def GlobPart.read (component : String) : Except GlobProblem GlobPart :=
  let chars := component.toList
  if component = "**" then .ok .directories
  else if component = ".." then .ok .back
  else if hasDoubleStar chars then .error .badRecursion
  else if chars.any fun c => c = '*' || c = '?' || c = '[' then .ok (.wild (itemsFrom 0 chars))
  else .ok (.name component)

/-- The names of all directories in a directory, its own empty list of names included. -/
def directoriesBelow (fs : FileSystem) (place : Location) : List (List String) :=
  [] :: fs.entries.filterMap fun (p, entry) =>
    if entry = .directory && place.isPrefixOf p && place.length < p.length then
      some (p.drop place.length)
    else none

/-- The names, seen from a path, that a pattern leads to; only directories are followed. A name that
is too long to be looked up is a failure. -/
def select (fs : FileSystem) (current : Location) (walked : Path) (onlyDirectories : Bool) :
    List GlobPart → Except Fault (List (List String))
  | [] => .ok [[]]
  | part :: rest => do
    let place? := (← fs.look current walked).map (·.1)
    let isWanted (names : List String) : Except Fault Bool := do
      match ← fs.look current (walked.below names) with
      | some (_, .directory) => return true
      | some (_, .file _) => return rest.isEmpty && !onlyDirectories
      | none => return false
    let steps ← match part with
      | .directories => pure (place?.elim [] fs.directoriesBelow)
      | .back => pure [[".."]]
      | .name component => [[component]].filterM isWanted
      | .wild items =>
        let names := (place?.elim [] fs.children).filter fun name => matchesItems items name.toList
        (names.map fun name => [name]).filterM isWanted
    let found ← steps.mapM fun step => do
      let below ← fs.select current (walked.below step) onlyDirectories rest
      return below.map (step ++ ·)
    return found.flatten

/-- The names of the files that the components of a pattern find in a directory. -/
def find (fs : FileSystem) (current : Location) (base : Path) (onlyDirectories : Bool)
    (parts : List GlobPart) : Except Fault (List String) := do
  match ← fs.look current base with
  | some (_, .directory) =>
    let found ← fs.select current base onlyDirectories parts
    let isFile (names : List String) : Except Fault Bool := do
      match ← fs.look current (base.below names) with
      | some (_, .file _) => return true
      | _ => return false
    return (← found.filterM isFile).map "/".intercalate
  | _ => return []

/-- The names of the files that a pattern finds in a directory, in ascending order. -/
def glob (fs : FileSystem) (current : Location) (base : Path) (pattern : String) :
    Except GlobProblem (List String) := do
  if pattern = "" then throw .empty
  let p := Path.ofText pattern
  let endsInSlash := pattern.toList.getLast? = some '/'
  if p.isAbsolute then throw .absolute
  if p.parts.isEmpty then throw (if endsInSlash then .onlySlash else .noComponents)
  let parts ← p.parts.mapM GlobPart.read
  let found ← (fs.find current base endsInSlash parts).mapError .files
  -- one file may be found along several ways
  return found.eraseDups.mergeSort fun a b => a ≤ b

end Branchwork.FileSystem
