import Branchwork.Experiment.Problem

/-!
# Inputs

An input identifier names the files of the working directory that match a pattern, or a page to
capture. A leading `!` asks for the plain text of the files, or for a capture without styles.
-/

namespace Branchwork.Experiment

/-- How an input is acquired. -/
inductive InputKind where
  | file
  | fileText
  | capture
  | captureUnstyled
deriving DecidableEq, Repr

/-- An input: its identifier, and the kind and pattern that the identifier spells. -/
structure Input where
  identifier : String
  kind : InputKind
  pattern : String
deriving DecidableEq, Repr

/-- The word for a kind. -/
def InputKind.name : InputKind → String
  | .file => "file"
  | .fileText => "file_text"
  | .capture => "capture"
  | .captureUnstyled => "capture_no_style"

/-- Whether a kind of input is a page to capture. -/
def InputKind.isCapture : InputKind → Bool
  | .capture | .captureUnstyled => true
  | .file | .fileText => false

/-- The mark of the plainer kind of an input. -/
def plainMark : Char := '!'

/-- The beginnings of the address of a page. -/
def addressStarts : List (List Char) := ["http://".toList, "https://".toList]

/-- Whether a pattern is the address of a page. -/
def isAddress (pattern : List Char) : Bool := addressStarts.any (·.isPrefixOf pattern)

/-- The wildcards of other pattern languages, in ascending order; no file pattern may hold them. -/
def unsupportedWildcards : List Char := ['?', '[', ']']

/-- The kind of an input with the given pattern. -/
def kindOf (plain address : Bool) : InputKind :=
  match plain, address with
  | false, false => .file
  | true, false => .fileText
  | false, true => .capture
  | true, true => .captureUnstyled

/-- Whether an identifier carries the mark, and the pattern without it. -/
def splitMark : List Char → Bool × List Char
  | [] => (false, [])
  | c :: rest => if c = plainMark then (true, rest) else (false, c :: rest)

/-- Reads an input identifier. -/
def Input.read (identifier : String) : Except Problem Input :=
  let (plain, pattern) := splitMark identifier.toList
  let found := unsupportedWildcards.filter pattern.contains
  if pattern.isEmpty then .error (.emptyInput identifier)
  else if !isAddress pattern && !found.isEmpty then
    .error (.unsupportedWildcards identifier found)
  else .ok ⟨identifier, kindOf plain (isAddress pattern), String.ofList pattern⟩

end Branchwork.Experiment
