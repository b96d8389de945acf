import Branchwork.Script.Expand

/-!
# Leading streams elsewhere

A redirection leads a stream to a file, which it opens, to where another stream leads, or from a
text. What cannot be opened is complained about.
-/

namespace Branchwork.Script.Redirect

open Sh

/-- The names under which the streams themselves can be opened. -/
def streamNames : List (String × Nat) :=
  [("/dev/stdin", 0), ("/dev/stdout", 1), ("/dev/stderr", 2), ("/dev/fd/0", 0), ("/dev/fd/1", 1),
    ("/dev/fd/2", 2)]

/-- The file that takes everything and holds nothing. -/
def emptyName : String := "/dev/null"

/-- Why a file is not opened, in words. A file to be read is missing, and one to be made misses its
directory. -/
def refusal (mode : Mode) (name : String) (reason : FileSystem.Reason) : String :=
  let isMissing := reason = .missing || reason = .notDirectory
  let (verb, missing) :=
    if mode = .read then ("open", "No such file") else ("create", "Directory nonexistent")
  let text := if isMissing then missing else reason.text
  s!"cannot {verb} {name}: {text}"

/-- Opens a file; gives the number of the channel that leads to it. -/
def openFile (mode : Mode) (name : String) : Sh (Except String Nat) := do
  if name = emptyName then return .ok (← addChannel .nothing)
  if let some number := ← ((streamNames.lookup name).map channelOf?).getD (pure none) then
    return .ok number
  let s ← get
  let path := Path.ofText (readable name)
  let place := if name = "" then .error .missing else s.files.follow s.directory path
  match place with
  | .error reason => return .error (refusal mode name reason)
  | .ok place =>
    match s.files.get? place, mode with
    | some .directory, .read => return .ok (← addChannel .directory)
    | some .directory, _ => return .error (refusal mode name .isDirectory)
    | none, .read => return .error (refusal mode name .missing)
    | found, _ =>
      if mode = .write || found.isNone then
        set { s with files := s.files.put place (.file []) }
      return .ok (← addChannel (.file place 0 (mode = .append)))

/-- The stream that a redirection leads elsewhere. -/
def stream : Redirection → Nat
  | .file stream _ _ | .copy stream _ | .here stream _ => stream

section

variable (capture : Command → Sh (List Char))

/-- Leads one stream elsewhere; false if that cannot be done. -/
def one : Redirection → Sh Bool
  | .file stream mode name => do
    match ← openFile mode (← Expand.text capture name) with
    | .ok number =>
      lead stream (some number)
      return true
    | .error message =>
      complain message
      return false
  | .copy stream source => do
    let source ← Expand.text capture source
    if source = "-" then
      lead stream none
      return true
    match (Utility.nat? source).filter (· < 10) with
    | none => abort "Syntax error: Bad fd number"
    | some other =>
      match ← channelOf? other with
      | none =>
        complain s!"{source}: Bad file descriptor"
        return false
      | number =>
        lead stream number
        return true
  | .here stream document => do
    let text ← Expand.text capture document
    lead stream (some (← addChannel (.supplied text.toList)))
    return true

/-- Leads streams elsewhere, one after the other, up to one for which it cannot be done. -/
def all : List Redirection → Sh Bool
  | [] => return true
  | redirection :: rest => do
    if ← one capture redirection then all rest else return false

end

end Branchwork.Script.Redirect
