import Branchwork.Text.Similar

/-!
# Arguments of a command

The words behind the name of a command are options and operands. A long option is written `--name`
or `--name=value`; short options are written `-n` and may be joined; the value of an option stands
behind its name or is the next word. Behind the word `--` all words are operands.
-/

namespace Branchwork.Command

/-- An option that a command knows: its long name with its dashes, perhaps a letter, a word for its
value if it takes one, and what it is for. -/
structure Switch where
  name : String
  letter : Option Char
  valueWord : Option String
  about : String
deriving DecidableEq, Repr

/-- Whether an option takes a value. -/
def Switch.takesValue (s : Switch) : Bool := s.valueWord.isSome

/-- What is wrong with words. -/
inductive WordProblem where
  | unknownOption (name : String) (similar : List String)
  | noValue (name : String)
  | needlessValue (name : String)
deriving DecidableEq, Repr

/-- Words that have been read: the options by their long names, with their values, and the
operands. -/
structure Arguments where
  options : List (String × Option String)
  operands : List String
deriving DecidableEq, Repr

namespace Arguments

/-- The value of an option, the last one if it is given several times. -/
def value? (a : Arguments) (name : String) : Option String :=
  (a.options.reverse.lookup name).join

/-- The values of an option that may be given several times, in order. -/
def values (a : Arguments) (name : String) : List String :=
  a.options.filterMap fun (n, value) => if n = name then value else none

/-- Whether an option is given. -/
def has (a : Arguments) (name : String) : Bool := a.options.any (·.1 = name)

end Arguments

/-- Options that were read from one word, and whether the next word is the value of the last. -/
structure WordOptions where
  found : List (String × Option String)
  takesNext : Bool

/-- Reads a long option; `next` is the word behind it. -/
def readLong (switches : List Switch) (word : List Char) (next : Option String) :
    Except WordProblem WordOptions :=
  let name := String.ofList (word.takeWhile (· ≠ '='))
  let value := (word.dropWhile (· ≠ '=')).tail?.map String.ofList
  match switches.find? (·.name = name) with
  | none => .error (.unknownOption name (Text.similar name (switches.map (·.name))))
  | some switch =>
    match switch.takesValue, value with
    | false, none => .ok ⟨[(name, none)], false⟩
    | false, some _ => .error (.needlessValue name)
    | true, some value => .ok ⟨[(name, some value)], false⟩
    | true, none =>
      match next with
      | some next => .ok ⟨[(name, some next)], true⟩
      | none => .error (.noValue name)

/-- Reads the letters of short options; `next` is the word behind them. -/
def readLetters (switches : List Switch) (next : Option String) :
    List Char → Except WordProblem WordOptions
  | [] => .ok ⟨[], false⟩
  | letter :: rest =>
    let written := String.ofList ['-', letter]
    match switches.find? (·.letter = some letter) with
    | none => .error (.unknownOption written [])
    | some switch =>
      if switch.takesValue then
        match rest, next with
        | [], none => .error (.noValue written)
        | [], some next => .ok ⟨[(switch.name, some next)], true⟩
        | rest, _ => .ok ⟨[(switch.name, some (String.ofList rest))], false⟩
      else
        (readLetters switches next rest).map fun more =>
          { more with found := (switch.name, none) :: more.found }

/-- Reads the options in a word that starts with a dash. -/
def readOptions (switches : List Switch) (word : List Char) (next : Option String) :
    Except WordProblem WordOptions :=
  match word with
  | '-' :: '-' :: _ => readLong switches word next
  | _ => readLetters switches next (word.drop 1)

/-- Whether a word holds options. -/
def holdsOptions (word : String) : Bool :=
  match word.toList with
  | '-' :: _ :: _ => true
  | _ => false

/-- Reads words behind those that are read already. `mixed` says whether options may stand behind
operands; where they may not, the first operand ends the options. -/
def readWords (switches : List Switch) (mixed : Bool) (read : Arguments) :
    List String → Except WordProblem Arguments
  | [] => .ok read
  | word :: rest =>
    if word = "--" then .ok { read with operands := read.operands ++ rest }
    else if holdsOptions word then
      match readOptions switches word.toList rest.head?, rest with
      | .error problem, _ => .error problem
      | .ok ⟨found, true⟩, _ :: rest =>
        readWords switches mixed { read with options := read.options ++ found } rest
      | .ok ⟨found, _⟩, rest =>
        readWords switches mixed { read with options := read.options ++ found } rest
    else if mixed then
      readWords switches mixed { read with operands := read.operands ++ [word] } rest
    else .ok { read with operands := read.operands ++ word :: rest }

/-- Reads words as options and operands. -/
def Arguments.read (switches : List Switch) (mixed : Bool) (words : List String) :
    Except WordProblem Arguments :=
  readWords switches mixed ⟨[], []⟩ words

end Branchwork.Command
