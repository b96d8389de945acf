/-!
# Shell scripts

What a shell script says: commands, the words in them, and where their streams lead. A script is a
text of bytes; it is kept as a text with one character, below 256, for each byte.
-/

namespace Branchwork.Script

/-- How a file is opened. -/
inductive Mode where
  | read
  | write
  | append
  | readWrite
deriving DecidableEq, Repr

mutual

/-- A part of a word. What is quoted stays as it is: it is neither split into words nor read as a
pattern. -/
inductive Part where
  | char (c : Char) (quoted : Bool)
  | quotes
  | home
  | parameter (name : String) (use : Use) (quoted : Bool)
  | output (command : Command) (quoted : Bool)
  | number (expression : List Part) (quoted : Bool)
  | misspelt

/-- What a parameter is used for: its value, its length, another word in its place if it is not set
(or empty, if `orEmpty`), or its value without what a pattern matches at one end. -/
inductive Use where
  | value
  | length
  | default (orEmpty : Bool) (word : List Part)
  | assign (orEmpty : Bool) (word : List Part)
  | demand (orEmpty : Bool) (word : List Part)
  | instead (orEmpty : Bool) (word : List Part)
  | cut (atEnd longest : Bool) (pattern : List Part)

/-- Where a stream leads: to a file, to where another stream leads, or from a text in the script. -/
inductive Redirection where
  | file (stream : Nat) (mode : Mode) (name : List Part)
  | copy (stream : Nat) (source : List Part)
  | here (stream : Nat) (text : List Part)

/-- A command. The line that it stands in is kept where complaints tell it. -/
inductive Command where
  | nothing
  | simple (line : Nat) (definitions : List (String × List Part)) (words : List (List Part))
      (redirections : List Redirection)
  | redirected (line : Nat) (body : Command) (redirections : List Redirection)
  | pipeline (stages : List Command)
  | negated (body : Command)
  | both (first second : Command)
  | either (first second : Command)
  | sequence (first second : Command)
  | background (body : Command)
  | subshell (line : Nat) (body : Command)
  | choice (test body otherwise : Command)
  | loop (isUntil : Bool) (test body : Command)
  | each (line : Nat) (name : String) (words : List (List Part)) (body : Command)
  | select (line : Nat) (word : List Part) (arms : List (List (List Part) × Command))
  | define (line : Nat) (name : String) (body : Command)

end

/-- A word. -/
abbrev Word := List Part

/-- Commands in the list are complete lines of a script. If a line is none, the complaint about it
comes last. -/
structure Program where
  lines : List Command
  complaint : Option (Nat × String)

instance : Inhabited Command := ⟨.nothing⟩

/-- Whether a character may start the name of a variable. -/
def startsName (c : Char) : Bool := c.isAlpha || c = '_'

/-- Whether a character may stand in the name of a variable. -/
def isNameChar (c : Char) : Bool := c.isAlphanum || c = '_'

/-- Whether a text can be the name of a variable. -/
def isName (name : String) : Bool := name.toList.head?.any startsName && name.toList.all isNameChar

/-- The parts of a text that stands for itself. -/
def quotedParts (s : List Char) : Word := s.map (.char · true)

end Branchwork.Script
