/-!
# Arithmetic of a shell

An expression of integers of 64 bits that wrap around: the operators of arithmetic, of comparison,
of bits and of logic, a choice, and assignments to variables. A variable that is not set counts as
zero. What a logical operator or a choice leaves out has no effect.

The readers spend one unit of `fuel` on each call; between two tokens fewer than eight calls nest.
-/

namespace Branchwork.Script.Arithmetic

/-- A token of an expression. -/
inductive Token where
  | number (n : Int64)
  | name (text : String)
  | operator (text : String)
  | bad
deriving DecidableEq, Repr

/-- What can be wrong with an expression: its form, a division, or the value of a variable. -/
inductive Problem where
  | expected (what : String)
  | divisionByZero
  | illegalNumber (text : String)
deriving DecidableEq, Repr

/-- A problem with an expression in words. -/
def Problem.message (expression : String) : Problem → String
  | .expected what => s!"arithmetic expression: expecting {what}: \"{expression}\""
  | .divisionByZero => s!"arithmetic expression: division by zero: \"{expression}\""
  | .illegalNumber text => s!"Illegal number: {text}"

/-! ## Numbers -/

/-- The greatest number. -/
def greatest : Int := 9223372036854775807

/-- The number that digits of a base stand for, and the count of the digits. -/
def digits (base : Nat) (s : List Char) : Nat × Nat :=
  let value? (c : Char) : Option Nat :=
    let n :=
      if c.isDigit then c.toNat - 48
      else if 'a' ≤ c && c ≤ 'f' then c.toNat - 87
      else if 'A' ≤ c && c ≤ 'F' then c.toNat - 55
      else base
    if n < base then some n else none
  let run := s.takeWhile fun c => (value? c).isSome
  (run.foldl (fun n c => base * n + (value? c).getD 0) 0, run.length)

/-- The number at the front of a text without a sign, and the count of its characters. A zero in
front asks for base eight, and `0x` for base sixteen. -/
def unsigned (s : List Char) : Nat × Nat :=
  match s with
  | '0' :: x :: rest =>
    let (n, length) := digits 16 rest
    if (x = 'x' || x = 'X') && 0 < length then (n, length + 2) else digits 8 s
  | _ => digits 10 s

/-- Whether a character is a blank. -/
def isBlank (c : Char) : Bool := c = ' ' || ('\t' ≤ c && c ≤ '\r')

/-- The number that the value of a variable stands for. -/
def numberOf (text : String) : Except Problem Int64 :=
  let s := text.toList.dropWhile isBlank
  let negative := s.head? = some '-'
  let body := if negative || s.head? = some '+' then s.drop 1 else s
  let (n, length) := unsigned body
  let rest := if length = 0 then text.toList else body.drop length
  let value : Int := if negative then -n else n
  if value < -greatest - 1 || greatest < value || !(rest.dropWhile isBlank).isEmpty then
    .error (.illegalNumber text)
  else .ok (.ofInt value)

/-! ## Tokens -/

/-- The operators, longer ones first. -/
def operators : List String :=
  ["<<=", ">>=", "<<", ">>", "<=", ">=", "==", "!=", "&&", "||", "+=", "-=", "*=", "/=", "%=", "&=",
    "|=", "^=", "+", "-", "*", "/", "%", "<", ">", "=", "!", "~", "&", "|", "^", "?", ":", "(", ")"]

/-- The tokens of an expression. -/
def tokens : Nat → List Char → List Token
  | 0, _ | _, [] => []
  | fuel + 1, c :: rest =>
    let s := c :: rest
    if isBlank c then tokens fuel rest
    else if c.isDigit then
      let (n, length) := unsigned s
      .number (.ofInt (min (n : Int) greatest)) :: tokens fuel (s.drop length)
    else if c.isAlpha || c = '_' then
      let name := s.takeWhile fun c => c.isAlphanum || c = '_'
      .name (String.ofList name) :: tokens fuel (s.drop name.length)
    else
      match operators.find? fun text => text.toList.isPrefixOf s with
      | some text => .operator text :: tokens fuel (s.drop text.length)
      | none => [.bad]

/-! ## Evaluation -/

/-- What is left of an expression, and the values that were assigned, the last one first. -/
structure State where
  rest : List Token
  assigned : List (String × Int64)

/-- A step of the evaluation. -/
abbrev Eval := StateT State (Except Problem)

/-- The number for a truth value. -/
def truth (b : Bool) : Int64 := if b then 1 else 0

/-- How tightly an operator of two operands binds; lower ranks bind tighter. -/
def rank? (operator : String) : Option Nat :=
  ([("*", 0), ("/", 0), ("%", 0), ("+", 1), ("-", 1), ("<<", 2), (">>", 2), ("<", 3), ("<=", 3),
    (">", 3), (">=", 3), ("==", 4), ("!=", 4), ("&", 5), ("^", 6), ("|", 7)] :
    List (String × Nat)).lookup operator

/-- The rank beyond that of all operators. -/
def lastRank : Nat := 8

/-- Applies an operator to two operands. -/
def apply (operator : String) (a b : Int64) : Except Problem Int64 :=
  match operator with
  | "*" => .ok (a * b)
  | "/" => if b = 0 then .error .divisionByZero else .ok (a / b)
  | "%" => if b = 0 then .error .divisionByZero else .ok (a % b)
  | "+" => .ok (a + b)
  | "-" => .ok (a - b)
  | "<<" => .ok (a <<< b)
  | ">>" => .ok (a >>> b)
  | "<" => .ok (truth (a < b))
  | "<=" => .ok (truth (a ≤ b))
  | ">" => .ok (truth (b < a))
  | ">=" => .ok (truth (b ≤ a))
  | "==" => .ok (truth (a = b))
  | "!=" => .ok (truth (a ≠ b))
  | "&" => .ok (a &&& b)
  | "^" => .ok (a ^^^ b)
  | "|" => .ok (a ||| b)
  | _ => .ok b

/-- Takes the next token. -/
def take : Eval (Option Token) := do
  let s ← get
  set { s with rest := s.rest.drop 1 }
  return s.rest.head?

/-- Takes an operator, if it comes next. -/
def accept (text : String) : Eval Bool := do
  let found := (← get).rest.head? = some (.operator text)
  if found then
    let _ ← take
  return found

/-- Takes an operator that has to come next. -/
def expect (text : String) : Eval Unit := do
  unless ← accept text do throw (.expected s!"'{text}'")

section

variable (value? : String → Option String)

/-- The number that a variable stands for. -/
def lookup (name : String) : Eval Int64 := do
  match (← get).assigned.lookup name with
  | some n => return n
  | none => numberOf ((value? name).getD "")

/-- Assigns a number to a variable. -/
def assign (name : String) (n : Int64) : Eval Unit :=
  modify fun s => { s with assigned := (name, n) :: s.assigned }

mutual

/-- Evaluates an expression; what is `dead` has no effect. -/
def expression (dead : Bool) : Nat → Eval Int64
  | 0 => throw (.expected "primary")
  | fuel + 1 => do
    match (← get).rest with
    | .name name :: .operator sign :: rest =>
      let operator := String.ofList (sign.toList.dropLast)
      let assigns := sign = "=" ||
        (sign.toList.getLast? = some '=' && (rank? operator).isSome && (rank? sign).isNone)
      if assigns then
        modify fun s => { s with rest }
        let n ← expression dead fuel
        if dead then return n
        let n ← if sign = "=" then pure n else apply operator (← lookup value? name) n
        assign name n
        return n
      else choice dead fuel
    | _ => choice dead fuel

/-- Evaluates a choice. -/
def choice (dead : Bool) : Nat → Eval Int64
  | 0 => throw (.expected "primary")
  | fuel + 1 => do
    let a ← anyOf dead fuel
    if ← accept "?" then
      let b ← expression (dead || a = 0) fuel
      expect ":"
      let c ← choice (dead || a ≠ 0) fuel
      return if a ≠ 0 then b else c
    else return a

/-- Evaluates alternatives up to the first one that holds. -/
def anyOf (dead : Bool) : Nat → Eval Int64
  | 0 => throw (.expected "primary")
  | fuel + 1 => do
    let a ← allOf dead fuel
    if ← accept "||" then
      let b ← anyOf (dead || a ≠ 0) fuel
      return truth (a ≠ 0 || b ≠ 0)
    else return a

/-- Evaluates conditions up to the first one that does not hold. -/
def allOf (dead : Bool) : Nat → Eval Int64
  | 0 => throw (.expected "primary")
  | fuel + 1 => do
    let a ← tighter dead lastRank fuel
    if ← accept "&&" then
      let b ← allOf (dead || a = 0) fuel
      return truth (a ≠ 0 && b ≠ 0)
    else return a

/-- Evaluates operators that bind tighter than a rank. -/
def tighter (dead : Bool) (rank : Nat) : Nat → Eval Int64
  | 0 => throw (.expected "primary")
  | fuel + 1 => do tighterFrom dead rank (← operand dead fuel) fuel

/-- Evaluates operators that bind tighter than a rank, behind their first operand. -/
def tighterFrom (dead : Bool) (rank : Nat) (a : Int64) : Nat → Eval Int64
  | 0 => return a
  | fuel + 1 => do
    match (← get).rest with
    | .operator sign :: rest =>
      match (rank? sign).filter (· < rank) with
      | none => return a
      | some inner =>
        modify fun s => { s with rest }
        let b ← tighter dead inner fuel
        let a ← if dead then pure b else apply sign a b
        tighterFrom dead rank a fuel
    | _ => return a

/-- Evaluates an operand. -/
def operand (dead : Bool) : Nat → Eval Int64
  | 0 => throw (.expected "primary")
  | fuel + 1 => do
    match ← take with
    | some (.number n) => return n
    | some (.name name) => if dead then return 0 else lookup value? name
    | some (.operator "(") =>
      let n ← expression dead fuel
      expect ")"
      return n
    | some (.operator "+") => operand dead fuel
    | some (.operator "-") => return -(← operand dead fuel)
    | some (.operator "!") => return truth ((← operand dead fuel) = 0)
    | some (.operator "~") => return ~~~(← operand dead fuel)
    | _ => throw (.expected "primary")

end

end

/-- The value of an expression, with the values that are assigned, the first one first. -/
def evaluate (value? : String → Option String) (text : String) :
    Except Problem (Int64 × List (String × Int64)) := do
  let tokens := tokens (text.length + 1) text.toList
  let (n, s) ← (expression value? false (8 * tokens.length + 8)).run ⟨tokens, []⟩
  unless s.rest.isEmpty do throw (.expected "EOF")
  return (n, s.assigned.reverse)

end Branchwork.Script.Arithmetic
