import Branchwork.Script.Shell

/-!
# Utilities beside a shell

What the programs that a script starts have in common: they take words, read files or their input,
write to their output, complain in their own name and end with a status.
-/

namespace Branchwork.Script

/-- A step that takes words and gives a status. -/
abbrev Operation := List String → Sh Int

namespace Utility

/-! ## Output and complaints -/

/-- Writes a text to the output. -/
def emit (name : String) (text : List Char) : Sh Int := do
  if text.isEmpty || (← Sh.write 1 text) then return 0
  Sh.report s!"{name}: write error: Bad file descriptor"
  return 1

/-- Complains in the name of a utility. -/
def complain (name message : String) : Sh Int := do
  Sh.report s!"{name}: {message}"
  return 1

/-- Complains about the words that a utility was given. -/
def refuse (name message : String) : Sh Int := do
  Sh.report s!"{name}: {message}"
  Sh.report s!"Try '{name} --help' for more information."
  return 1

/-! ## Options -/

/-- The options of a utility with their values, and its other words. -/
structure Options where
  given : List (Char × String)
  words : List String

/-- Whether an option is given. -/
def Options.has (o : Options) (letter : Char) : Bool := o.given.any (·.1 = letter)

/-- The value of an option; the last one counts. -/
def Options.value? (o : Options) (letter : Char) : Option String := o.given.reverse.lookup letter

/-- The letters of one word of options. A letter in `valued` takes the rest of the word, or the
next word, as its value. -/
def letters (plain valued : String) (next : List String) :
    List Char → Except String (List (Char × String) × List String)
  | [] => .ok ([], next)
  | c :: rest => do
    if valued.toList.contains c then
      match rest, next with
      | [], [] => throw s!"option requires an argument -- '{c}'"
      | [], value :: next => return ([(c, value)], next)
      | rest, next => return ([(c, String.ofList rest)], next)
    if !plain.toList.contains c then throw s!"invalid option -- '{c}'"
    let (more, next) ← letters plain valued next rest
    return ((c, "") :: more, next)

/-- The options among words. They may stand behind other words; `--` ends them. -/
def options (plain valued : String) : Nat → List String → Except String Options
  | 0, words => .ok ⟨[], words⟩
  | _, [] => .ok ⟨[], []⟩
  | fuel + 1, word :: rest => do
    match word.toList with
    | ['-', '-'] => return ⟨[], rest⟩
    | '-' :: '-' :: _ => throw s!"unrecognized option '{word}'"
    | '-' :: c :: more =>
      let (given, rest) ← letters plain valued rest (c :: more)
      let behind ← options plain valued fuel rest
      return { behind with given := given ++ behind.given }
    | _ =>
      let behind ← options plain valued fuel rest
      return { behind with words := word :: behind.words }

/-- Uses the options among words, or complains about them. -/
def withOptions (name plain valued : String) (words : List String) (use : Options → Sh Int) :
    Sh Int := do
  match options plain valued (words.length + 1) words with
  | .ok found => use found
  | .error message => refuse name message

/-! ## Files -/

/-- The path that a word stands for. -/
def pathOf (word : String) : Path := .ofText (readable word)

/-- What is left of the input, or why it cannot be read. -/
def input : Sh (Except String (List Char)) := do
  match ← Sh.channel? 0 with
  | none => return .error "Bad file descriptor"
  | some (_, .directory) => return .error "Is a directory"
  | some _ => return .ok ((← Sh.readAll 0).getD [])

/-- The text of a file, or why it cannot be read; a dash stands for the input. -/
def contents (word : String) : Sh (Except String (List Char)) := do
  if word = "-" || word = "/dev/stdin" then input
  else if word = "/dev/null" then return .ok []
  else if word = "" then return .error FileSystem.Reason.missing.text
  else
    let s ← get
    match s.files.readFile s.directory (pathOf word) with
    | .ok bytes => return .ok (ofBytes bytes)
    | .error fault => return .error fault.reason.text

/-- Takes a step with the text of each file that can be read, and with the input if there are no
files. Complains about the others; the status is that of the worst one. -/
def overFiles (words : List String) (complaint : String → String → String)
    (step : String → List Char → Sh Int) : Sh Int := do
  let one (word : String) : Sh Int := do
    match ← contents word with
    | .ok text => step word text
    | .error reason =>
      Sh.report (complaint word reason)
      return 1
  let statuses ← (if words.isEmpty then ["-"] else words).mapM one
  return statuses.foldl max 0

/-- The lines of a text, with their ends. -/
def lines : List Char → List (List Char)
  | [] => []
  | c :: rest =>
    if c = '\n' then [c] :: lines rest
    else
      match lines rest with
      | first :: more => (c :: first) :: more
      | [] => [[c]]

/-- A line without its end. -/
def bare (line : List Char) : List Char := line.filter (· ≠ '\n')

/-- The number that digits stand for. -/
def natOf (digits : List Char) : Nat := digits.foldl (fun n c => 10 * n + (c.toNat - 48)) 0

/-- The number that a word of digits stands for. -/
def nat? (word : String) : Option Nat :=
  let digits := word.toList
  if !digits.isEmpty && digits.all Char.isDigit then some (natOf digits) else none

/-- A text behind blanks that fill it up to a width. -/
def padLeft (width : Nat) (text : String) : String :=
  String.ofList (List.replicate (width - text.length) ' ') ++ text

end Utility

end Branchwork.Script
