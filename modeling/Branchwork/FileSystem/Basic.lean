import Branchwork.Path
import Branchwork.Text.Quoted
import Branchwork.Text.Utf8

/-!
# File systems

A file system is a tree of directories with files in it, given as the list of what lies at each
location below the root; the root itself is always a directory. Operations follow a path from a
current directory and fail with the reason that an operating system gives.
-/

namespace Branchwork

/-- A place in a file system: the names that lead to it from the root. -/
abbrev Location := List String

/-- What lies at a location. -/
inductive FileSystem.Entry where
  | file (bytes : List UInt8)
  | directory
deriving DecidableEq, Repr

/-- The files and directories below the root. -/
structure FileSystem where
  entries : List (Location × FileSystem.Entry)

namespace FileSystem

/-- Why an operation fails. -/
inductive Reason where
  | missing
  | denied
  | alreadyThere
  | notDirectory
  | isDirectory
  | nameTooLong
deriving DecidableEq, Repr

/-- A failed operation: the reason, and the path that was asked for. -/
structure Fault where
  reason : Reason
  path : String
deriving DecidableEq, Repr

/-- The number of a reason. -/
def Reason.number : Reason → Nat
  | .missing => 2
  | .denied => 13
  | .alreadyThere => 17
  | .notDirectory => 20
  | .isDirectory => 21
  | .nameTooLong => 36

/-- A reason in words. -/
def Reason.text : Reason → String
  | .missing => "No such file or directory"
  | .denied => "Permission denied"
  | .alreadyThere => "File exists"
  | .notDirectory => "Not a directory"
  | .isDirectory => "Is a directory"
  | .nameTooLong => "File name too long"

/-- The word for the kind of a failure. -/
def Reason.kind : Reason → String
  | .missing => "FileNotFoundError"
  | .denied => "PermissionError"
  | .alreadyThere => "FileExistsError"
  | .notDirectory => "NotADirectoryError"
  | .isDirectory => "IsADirectoryError"
  | .nameTooLong => "OSError"

/-- The reason of a failure with its number. -/
def Fault.summary (f : Fault) : String := s!"[Errno {f.reason.number}] {f.reason.text}"

/-- A failure in words. -/
def Fault.message (f : Fault) : String := s!"{f.summary}: {quoteText f.path}"

/-- The file system without files. -/
def empty : FileSystem := ⟨[]⟩

/-- What lies at a location. -/
def get? (fs : FileSystem) (place : Location) : Option Entry :=
  if place = [] then some .directory else fs.entries.lookup place

/-- Puts an entry at a location. -/
def putEntry (place : Location) (entry : Entry) :
    List (Location × Entry) → List (Location × Entry)
  | [] => [(place, entry)]
  | (p, e) :: rest => if p = place then (p, entry) :: rest else (p, e) :: putEntry place entry rest

/-- The file system with an entry put at a location. -/
def put (fs : FileSystem) (place : Location) (entry : Entry) : FileSystem :=
  ⟨putEntry place entry fs.entries⟩

/-- The file system without what lies at a location and below it. -/
def remove (fs : FileSystem) (place : Location) : FileSystem :=
  ⟨fs.entries.filter fun (p, _) => !place.isPrefixOf p⟩

/-- The names of what lies directly in a directory. -/
def children (fs : FileSystem) (place : Location) : List String :=
  fs.entries.filterMap fun (p, _) =>
    if p.length = place.length + 1 && place.isPrefixOf p then p.getLast? else none

/-- The greatest count of bytes of a name. -/
def maxNameBytes : Nat := 255

/-- Follows names from a location; `..` leads back. Every name but the last has to lead to a
directory. -/
def locate (fs : FileSystem) (place : Location) : List String → Except Reason Location
  | [] => .ok place
  | name :: rest =>
    match fs.get? place with
    | none => .error .missing
    | some (.file _) => .error .notDirectory
    | some .directory =>
      if maxNameBytes < name.utf8ByteSize then .error .nameTooLong
      else fs.locate (if name = ".." then place.dropLast else place ++ [name]) rest

/-- Where a path starts, seen from a current directory. -/
def base (current : Location) (p : Path) : Location := if p.isAbsolute then [] else current

/-- The count of bytes that a path has to stay below. -/
def pathLimit : Nat := 4096

/-- The location that a path leads to. -/
def follow (fs : FileSystem) (current : Location) (p : Path) : Except Reason Location :=
  if pathLimit ≤ p.text.utf8ByteSize then .error .nameTooLong
  else fs.locate (base current p) p.parts

/-- The entry that a path leads to. -/
def stat (fs : FileSystem) (current : Location) (p : Path) : Except Reason (Location × Entry) :=
  match fs.follow current p with
  | .error reason => .error reason
  | .ok place => (fs.get? place).elim (.error .missing) fun entry => .ok (place, entry)

/-- What a path leads to, if it leads to anything. A name that is too long is a failure. -/
def look (fs : FileSystem) (current : Location) (p : Path) :
    Except Fault (Option (Location × Entry)) :=
  match fs.stat current p with
  | .ok found => .ok (some found)
  | .error .nameTooLong => .error ⟨.nameTooLong, p.text⟩
  | .error _ => .ok none

/-- Whether a path leads to a directory. -/
def isDirectory (fs : FileSystem) (current : Location) (p : Path) : Bool :=
  match fs.stat current p with
  | .ok (_, .directory) => true
  | _ => false

/-- Reads a file. -/
def readFile (fs : FileSystem) (current : Location) (p : Path) : Except Fault (List UInt8) :=
  match fs.stat current p with
  | .ok (_, .file bytes) => .ok bytes
  | .ok (_, .directory) => .error ⟨.isDirectory, p.text⟩
  | .error reason => .error ⟨reason, p.text⟩

/-- Writes a file, in a directory that has to be there. -/
def writeFile (fs : FileSystem) (current : Location) (p : Path) (bytes : List UInt8) :
    Except Fault FileSystem :=
  match fs.follow current p with
  | .error reason => .error ⟨reason, p.text⟩
  | .ok place =>
    if fs.get? place = some .directory then .error ⟨.isDirectory, p.text⟩
    else .ok (fs.put place (.file bytes))

/-- Makes a directory in one that is there. -/
def makeDirectory (fs : FileSystem) (current : Location) (p : Path) : Except Reason FileSystem :=
  match fs.follow current p with
  | .error reason => .error reason
  | .ok place =>
    if (fs.get? place).isSome then .error .alreadyThere else .ok (fs.put place .directory)

/-- Makes a directory and those that it lies in, as far as they are missing; `names` are the names
of its path, the last one first. What was made before a failure stays. -/
def ensureDirectoriesFrom (fs : FileSystem) (current : Location) (anchor : Path.Anchor) :
    (names : List String) → Option Fault × FileSystem
  | [] => (none, fs)
  | name :: above =>
    let p : Path := ⟨anchor, (name :: above).reverse⟩
    match fs.makeDirectory current p with
    | .ok fs => (none, fs)
    | .error .missing =>
      -- the directory above has to come first; a path with `..` may then be there already
      match fs.ensureDirectoriesFrom current anchor above with
      | (some fault, fs) => (some fault, fs)
      | (none, fs) =>
        match fs.makeDirectory current p with
        | .ok fs => (none, fs)
        | .error reason =>
          if fs.isDirectory current p then (none, fs) else (some ⟨reason, p.text⟩, fs)
    | .error reason =>
      if fs.isDirectory current p then (none, fs) else (some ⟨reason, p.text⟩, fs)

/-- Makes the directory that a path names and those that it lies in, as far as they are missing: the
failure, if there is one, and the files behind it. -/
def ensureDirectories (fs : FileSystem) (current : Location) (p : Path) :
    Option Fault × FileSystem :=
  fs.ensureDirectoriesFrom current p.anchor p.parts.reverse

/-- The file system with the directory that a path names and those that it lies in. -/
def makeDirectories (fs : FileSystem) (current : Location) (p : Path) : Except Fault FileSystem :=
  match fs.ensureDirectories current p with
  | (none, fs) => .ok fs
  | (some fault, _) => .error fault

end FileSystem

end Branchwork
