import Branchwork.FileSystem.Basic
import Branchwork.Value.Basic

/-!
# Snapshots

A snapshot gives the files below a directory as a mapping from their paths to their contents: a
text, or the list of the bytes of a file that is no text. Reading a snapshot makes the directories
that the files lie in.
-/

namespace Branchwork.FileSystem

/-- A byte of a file that is no text. -/
def byteOf? : Value → Option UInt8
  | .int i => if 0 ≤ i && i < 256 then some i.toNat.toUInt8 else none
  | _ => none

/-- The bytes that a snapshot gives for a file. -/
def bytesOf? : Value → Option (List UInt8)
  | .text s => some (Utf8.encode s)
  | .list items => items.mapM byteOf?
  | _ => none

/-- Puts a file below a directory, with the directories that it lies in. -/
def putFile (fs : FileSystem) (place : Location) (p : Path) (bytes : List UInt8) :
    Except Fault FileSystem := do
  let fs ← fs.makeDirectories place p.parent
  fs.writeFile place p bytes

/-- Puts the files of a snapshot below a directory. An entry that is no file is passed over. -/
def restore (place : Location) (fs : FileSystem) : Mapping → Except Fault FileSystem
  | [] => .ok fs
  | (.text name, content) :: rest =>
    match bytesOf? content with
    | some bytes => do restore place (← fs.putFile place (.ofText name) bytes) rest
    | none => restore place fs rest
  | _ :: rest => restore place fs rest

/-- What a snapshot gives for the bytes of a file. -/
def contentOf (bytes : List UInt8) : Value :=
  match Utf8.decode bytes with
  | .ok s => .text s
  | .error _ => .list (bytes.map fun b => .int b.toNat)

/-- The files below a directory with their paths, in ascending order. -/
def filesBelow (fs : FileSystem) (place : Location) : List (String × List UInt8) :=
  let found := fs.entries.filterMap fun (p, entry) =>
    match entry with
    | .file bytes =>
      if place.isPrefixOf p then some ("/".intercalate (p.drop place.length), bytes) else none
    | .directory => none
  found.mergeSort fun a b => a.1 ≤ b.1

/-- The snapshot of a directory. -/
def snapshot (fs : FileSystem) (place : Location) : Mapping :=
  (fs.filesBelow place).map fun (name, bytes) => (.text name, contentOf bytes)

end Branchwork.FileSystem
