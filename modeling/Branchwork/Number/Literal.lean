import Branchwork.Number.Decimal
import Branchwork.Number.DigitLimit
import Branchwork.Text.Blank
import Branchwork.Text.Digit
import Branchwork.Text.Quoted

/-!
# Reading numbers as people write them

A number may have blanks around it, a sign in front, and underscores between its digits; its digits
may be those of any script. A floating-point number may also be one of the words `inf`, `infinity`
and `nan` in any case.
-/

namespace Branchwork.Literal

/-- Why a text is no integer. -/
inductive IntProblem where
  | notDigits
  | tooManyDigits (count : Nat)
deriving DecidableEq, Repr

/-- How much of a text that is no integer is shown. -/
def shownLength : Nat := 200

/-- Why a text is no integer of a base, in words. -/
def IntProblem.message (base : Nat) (text : String) : IntProblem → String
  | .notDigits =>
    let shown := String.ofList ((Text.quoted text.toList).take shownLength)
    s!"invalid literal for int() with base {base}: {shown}"
  | .tooManyDigits count => DigitLimit.message count

/-- Writes decimal digits of any script as ASCII digits. -/
def plainDigits (s : List Char) : List Char :=
  s.map fun c => ((Text.decimalDigit? c).map fun d => Char.ofNat (48 + d)).getD c

/-- Takes the sign: whether it is a minus, and what follows. -/
def takeSign : List Char → Bool × List Char
  | [] => (false, [])
  | c :: rest => if c = '-' then (true, rest) else (false, if c = '+' then rest else c :: rest)

/-- The value of a digit or letter below a base. -/
def digitBelow? (base : Nat) (c : Char) : Option Nat :=
  let value :=
    if c.isDigit then some (c.toNat - 48)
    else if 'a' ≤ c && c ≤ 'z' then some (c.toNat - 87)
    else if 'A' ≤ c && c ≤ 'Z' then some (c.toNat - 55)
    else none
  value.filter (· < base)

/-- Drops the underscores of a text if each one stands between two digits. -/
def dropMarks? (isDigit : Char → Bool) : (afterDigit : Bool) → List Char → Option (List Char)
  | _, [] => some []
  | afterDigit, c :: rest =>
    if c = '_' then
      if afterDigit && rest.head?.any isDigit then dropMarks? isDigit false rest else none
    else (dropMarks? isDigit (isDigit c) rest).map (c :: ·)

/-- The letter that announces a base behind a zero, in lower case. -/
def baseLetter? : Nat → Option Char
  | 2 => some 'b'
  | 8 => some 'o'
  | 16 => some 'x'
  | _ => none

/-- Drops the zero and the letter that announce a base, with one underscore behind them. -/
def dropBaseMark (base : Nat) (s : List Char) : List Char :=
  match s with
  | '0' :: letter :: rest =>
    if baseLetter? base = some letter.toLower then
      if rest.head? = some '_' then rest.drop 1 else rest
    else s
  | s => s

/-- Reads an integer in a base up to 36. Whether there are too many digits is seen before what
stands behind them. -/
def int? (base : Nat) (text : List Char) : Except IntProblem Int :=
  let (negative, signed) := takeSign (plainDigits (Text.trim text))
  let isDigit (c : Char) := (digitBelow? base c).isSome
  let body := dropBaseMark base signed
  let run := body.takeWhile fun c => isDigit c || c = '_'
  match dropMarks? isDigit false run with
  | none => .error .notDigits
  | some digits =>
    if base = 10 && DigitLimit.greatest < digits.length then
      .error (.tooManyDigits digits.length)
    else if digits.isEmpty || run.length < body.length then .error .notDigits
    else
      let n := digits.foldl (fun n c => base * n + (digitBelow? base c).getD 0) 0
      .ok (if negative then -(n : Int) else n)

/-- The number that ASCII digits stand for. -/
def digitsValue (digits : List Char) : Nat :=
  digits.foldl (fun n c => 10 * n + (c.toNat - 48)) 0

/-- The exponent at the end of a number; the empty text is the exponent zero. -/
def exponent? : List Char → Option Int
  | [] => some 0
  | c :: rest =>
    if c = 'e' || c = 'E' then
      let (negative, digits) := takeSign rest
      if digits.isEmpty || !digits.all Char.isDigit then none
      else some (if negative then -(digitsValue digits : Int) else digitsValue digits)
    else none

/-- Reads the digits of a number without a sign. -/
def unsigned? (negative : Bool) (s : List Char) : Option Binary64 :=
  let whole := s.takeWhile Char.isDigit
  let rest := s.dropWhile Char.isDigit
  let (places, rest) := match rest with
    | '.' :: rest => (rest.takeWhile Char.isDigit, rest.dropWhile Char.isDigit)
    | _ => ([], rest)
  if whole.isEmpty && places.isEmpty then none
  else
    (exponent? rest).map fun e =>
      (Decimal.mk negative (digitsValue (whole ++ places)) (e - places.length)).toBinary64

/-- The number that a word stands for. -/
def namedFloat? (negative : Bool) (body : List Char) : Option Binary64 :=
  let word := String.ofList (body.map Char.toLower)
  if word = "inf" || word = "infinity" then some (.infinite negative)
  else if word = "nan" then some .nan
  else none

/-- Reads a floating-point number. -/
def float? (text : List Char) : Option Binary64 :=
  let (negative, body) := takeSign (plainDigits (Text.trim text))
  (namedFloat? negative body).orElse fun _ =>
    (dropMarks? Char.isDigit false body).bind (unsigned? negative)

/-! ## Numbers of options

The rules for the number of an option are narrower: its digits are ASCII digits, the separators
`0x1c` to `0x1f` are no blanks, and underscores may stand anywhere but at the ends and side by
side, if there are no blanks. -/

/-- A blank around the number of an option. -/
def isOptionBlank (c : Char) : Bool := Text.isBlank c && !('\x1c' ≤ c && c ≤ '\x1f')

/-- Reads a floating-point number without blanks and underscores. -/
def bareFloat? (text : List Char) : Option Binary64 :=
  let (negative, body) := takeSign text
  (namedFloat? negative body).orElse fun _ => unsigned? negative body

/-- Whether a text has two underscores side by side. -/
def hasDoubleMark : List Char → Bool
  | '_' :: '_' :: _ => true
  | _ :: rest => hasDoubleMark rest
  | [] => false

/-- A text without its underscores, if they stand where they may. -/
def withoutMarks? (text : List Char) : Option (List Char) :=
  if text.head? = some '_' || text.getLast? = some '_' || hasDoubleMark text then none
  else some (text.filter (· ≠ '_'))

/-- Reads the number of an option. -/
def optionFloat? (text : List Char) : Option Binary64 :=
  let inner := ((text.dropWhile isOptionBlank).reverse.dropWhile isOptionBlank).reverse
  (bareFloat? inner).orElse fun _ => (withoutMarks? text).bind bareFloat?

end Branchwork.Literal
