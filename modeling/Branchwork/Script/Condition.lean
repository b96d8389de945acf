/-!
# Conditions of a shell

The words behind `test` say something that holds or not: about a text, about two texts or two
numbers, or about a file; conditions are joined by `!`, `-a`, `-o` and parentheses. A word that
looks like an operator may still be an operand, which its neighbours tell.

The readers spend one unit of `fuel` on each call; between two words fewer than eight calls nest.
-/

namespace Branchwork.Script.Condition

/-- What a word is: the end of the words, an operand, or an operator. -/
inductive Lexeme where
  | ending
  | operand
  | unary
  | binary
  | not
  | and
  | or
  | opening
  | closing
deriving DecidableEq, Repr

/-- Why words say nothing. -/
inductive Problem where
  | unexpectedOperator (word : String)
  | noArgument (operator : String)
  | noClosing
  | illegalNumber (word : String)
deriving DecidableEq, Repr

/-- A problem in words. -/
def Problem.message : Problem → String
  | .unexpectedOperator word => if word = "" then "unexpected operator" else
    s!"{word}: unexpected operator"
  | .noArgument operator => s!"{operator}: argument expected"
  | .noClosing => "closing paren expected"
  | .illegalNumber word => s!"Illegal number: {word}"

/-- The operators that ask for one file or text. -/
def unaryOperators : List String :=
  ["-r", "-w", "-x", "-e", "-f", "-d", "-c", "-b", "-p", "-u", "-g", "-k", "-s", "-t", "-z", "-n",
    "-h", "-O", "-G", "-L", "-S"]

/-- The operators that compare two words. -/
def binaryOperators : List String :=
  ["=", "!=", "<", ">", "-eq", "-ne", "-ge", "-gt", "-le", "-lt", "-nt", "-ot", "-ef"]

/-- What an operator is. -/
def operator? (word : String) : Option Lexeme :=
  if unaryOperators.contains word then some .unary
  else if binaryOperators.contains word then some .binary
  else
    ([("!", .not), ("-a", .and), ("-o", .or), ("(", .opening), (")", .closing)] :
      List (String × Lexeme)).lookup word

/-- Whether an operator of one operand is an operand itself, seen from the words behind it. -/
def isOperand : List String → Bool
  | [] => true
  | [_] => false
  | next :: _ => operator? next = some .binary

/-- What the first word is. -/
def lexeme : List String → Lexeme
  | [] => .ending
  | word :: rest =>
    match operator? word with
    | some .unary => if isOperand rest then .operand else .unary
    | some .opening => if rest.isEmpty then .operand else .opening
    | some found => found
    | none => .operand

/-- The number that a word stands for. -/
def number (word : String) : Except Problem Int :=
  let chars := word.toList.dropWhile fun c => c = ' ' || c = '\t' || c = '\n'
  let negative := chars.head? = some '-'
  let body := if negative || chars.head? = some '+' then chars.drop 1 else chars
  let digits := body.takeWhile Char.isDigit
  let behind := (body.drop digits.length).dropWhile fun c => c = ' ' || c = '\t' || c = '\n'
  if digits.isEmpty || !behind.isEmpty then .error (.illegalNumber word)
  else
    let n : Int := digits.foldl (fun n c => 10 * n + (c.toNat - 48)) (0 : Nat)
    .ok (if negative then -n else n)

/-- Compares two words. -/
def compare (a operator b : String) : Except Problem Bool := do
  match operator with
  | "=" => return a = b
  | "!=" => return a ≠ b
  | "<" => return a < b
  | ">" => return b < a
  | "-eq" => return (← number a) = (← number b)
  | "-ne" => return (← number a) ≠ (← number b)
  | "-lt" => return (← number a) < (← number b)
  | "-le" => return (← number a) ≤ (← number b)
  | "-gt" => return (← number b) < (← number a)
  | "-ge" => return (← number b) ≤ (← number a)
  | _ => return false

/-- What words say, and the words from the last one that was read on. -/
abbrev Answer := Except Problem (Bool × List String)

section

variable (aboutFile : String → String → Bool)

mutual

/-- Reads alternatives. -/
def anyOf (first : Lexeme) (words : List String) : Nat → Answer
  | 0 => .ok (false, words)
  | fuel + 1 => do
    let (holds, words) ← allOf first words fuel
    if lexeme (words.drop 1) = .or then
      let words := words.drop 2
      let (more, words) ← anyOf (lexeme words) words fuel
      return (holds || more, words)
    else return (holds, words)

/-- Reads conditions that hold together. -/
def allOf (first : Lexeme) (words : List String) : Nat → Answer
  | 0 => .ok (false, words)
  | fuel + 1 => do
    let (holds, words) ← negated first words fuel
    if lexeme (words.drop 1) = .and then
      let words := words.drop 2
      let (more, words) ← allOf (lexeme words) words fuel
      return (holds && more, words)
    else return (holds, words)

/-- Reads a condition or the opposite of one. -/
def negated (first : Lexeme) (words : List String) : Nat → Answer
  | 0 => .ok (false, words)
  | fuel + 1 => do
    if first ≠ .not then primary first words fuel
    else
      let next := lexeme (words.drop 1)
      let (holds, words) ←
        negated next (if next = .ending then words else words.drop 1) fuel
      return (!holds, words)

/-- Reads a condition. -/
def primary (first : Lexeme) (words : List String) : Nat → Answer
  | 0 => .ok (false, words)
  | fuel + 1 => do
    match first, words with
    | .ending, _ => return (false, words)
    | .opening, _ :: rest =>
      if lexeme rest = .closing then return (false, rest)
      let (holds, words) ← anyOf (lexeme rest) rest fuel
      unless lexeme (words.drop 1) = .closing do throw .noClosing
      return (holds, words.drop 1)
    | .unary, operator :: rest =>
      match rest with
      | [] => throw (.noArgument operator)
      | word :: _ =>
        if operator = "-z" then return (word = "", rest)
        else if operator = "-n" then return (word ≠ "", rest)
        else if operator = "-t" then
          let _ ← number word
          return (false, rest)
        else return (aboutFile operator word, rest)
    | _, a :: rest =>
      if lexeme rest = .binary then
        match rest with
        | operator :: b :: more => return (← compare a operator b, b :: more)
        | operator :: [] => throw (.noArgument operator)
        | [] => return (false, words)
      else return (a ≠ "", words)
    | _, [] => return (false, [])

end

/-- Whether what words say holds. -/
def holds (words : List String) : Except Problem Bool := do
  let fuel := 8 * words.length + 8
  let finish (first : Lexeme) (words : List String) : Except Problem Bool := do
    let (holds, words) ← anyOf aboutFile first words fuel
    match words with
    | word :: _ :: _ => throw (.unexpectedOperator word)
    | _ => return holds
  match words with
  | [] => return false
  | [a, operator, b] =>
    if operator? operator = some .binary then finish .operand words
    else if a = "(" && b = ")" then finish (lexeme [operator]) [operator]
    else if a = "!" then return !(← holds [operator, b])
    else finish (lexeme words) words
  | [a, b, c, d] =>
    if a = "(" && d = ")" then finish (lexeme [b, c]) [b, c]
    else if a = "!" then return !(← holds [b, c, d])
    else finish (lexeme words) words
  | words => finish (lexeme words) words
termination_by words.length

end

end Branchwork.Script.Condition
