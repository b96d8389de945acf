import Branchwork.Number.Literal
import Branchwork.Text.Base64
import Branchwork.Text.Lower
import Branchwork.Value.Basic
import Branchwork.Yaml.Problem
import Branchwork.Yaml.Tag

/-!
# Values of scalars

What a scalar with a tag stands for. The tag may have been written by hand, so a scalar need not
have the form that its tag asks for; then it is refused.
-/

namespace Branchwork.Yaml.Scalar

/-- A text without underscores. -/
def dropUnderscores (s : List Char) : List Char := s.filter (· ≠ '_')

/-- Reads digits of a base. -/
def digits (base : Nat) (s : List Char) : Except Problem Int :=
  match Literal.int? base s with
  | .ok n => .ok n
  | .error .notDigits => .error (.badInteger base (String.ofList s))
  | .error (.tooManyDigits count) => .error (.tooManyDigits count)

/-- Reads digits in base sixty. -/
def sixties (parts : List (List Char)) : Except Problem Int :=
  parts.foldlM (fun n part => return 60 * n + (← digits 10 part)) 0

/-- Reads an integer behind its sign. -/
def unsignedInt (s : List Char) : Except Problem Int :=
  match s with
  | [] => .error .noDigits
  | ['0'] => .ok 0
  | '0' :: 'b' :: rest => digits 2 rest
  | '0' :: 'x' :: rest => digits 16 rest
  | '0' :: _ => digits 8 s
  | _ => if s.contains ':' then sixties (Tag.splitAt ':' s) else digits 10 s

/-- Reads an integer. -/
def int (text : String) : Except Problem Int :=
  match dropUnderscores text.toList with
  | [] => .error .noDigits
  | c :: rest =>
    if c = '-' then (unsignedInt rest).map (- ·)
    else if c = '+' then unsignedInt rest
    else unsignedInt (c :: rest)

/-- Reads a number with a point. -/
def plainFloat (s : List Char) : Except Problem Binary64 :=
  match Literal.float? s with
  | some x => .ok x
  | none => .error (.badFloat (String.ofList s))

/-- The value of digits in base sixty, the last digit first; `place` is what one unit of the first
digit stands for. A digit is multiplied with the number nearest to its place. -/
def sixtiesFloat (place : Nat) (sum : Binary64) : List Binary64 → Except Problem Binary64
  | [] => .ok sum
  | x :: more =>
    match (Binary64.ofInt place).toInt? with
    | none => .error .tooLarge
    | some near => sixtiesFloat (60 * place) (sum.add (x.scale near.natAbs)) more

/-- Reads a number with a point behind its sign. -/
def unsignedFloat (s : List Char) : Except Problem Binary64 :=
  if s = ".inf".toList then .ok (.infinite false)
  else if s = ".nan".toList then .ok .nan
  else if s.contains ':' then do
    let parts ← (Tag.splitAt ':' s).mapM plainFloat
    sixtiesFloat 1 (.zero false) parts.reverse
  else plainFloat s

/-- Reads a floating-point number. -/
def float (text : String) : Except Problem Binary64 :=
  match Text.lower (dropUnderscores text.toList) with
  | [] => .error .noDigits
  | c :: rest =>
    if c = '-' then (unsignedFloat rest).map (·.negate)
    else if c = '+' then unsignedFloat rest
    else unsignedFloat (c :: rest)

/-- Reads a boolean. -/
def bool (text : String) : Except Problem Bool :=
  let word := Text.lowerText text
  if word = "yes" || word = "true" || word = "on" then .ok true
  else if word = "no" || word = "false" || word = "off" then .ok false
  else .error (.badBoolean word)

/-! ## Dates and moments -/

/-- The numbers of a time zone: its distance in minutes. -/
def zone? (s : List Char) : Option (Option Int) :=
  match s.dropWhile fun c => c = ' ' || c = '\t' with
  | [] => if s.isEmpty then some none else none
  | ['Z'] => some (some 0)
  | sign :: rest =>
    if sign ≠ '-' && sign ≠ '+' then none
    else
      let hours := rest.takeWhile Char.isDigit
      let minutes := match rest.dropWhile Char.isDigit with
        | [] => some []
        | ':' :: m => if m.length = 2 && m.all Char.isDigit then some m else none
        | _ => none
      if hours.isEmpty || 2 < hours.length then none
      else
        minutes.map fun m =>
          let n : Int := 60 * Literal.digitsValue hours + Literal.digitsValue m
          some (if sign = '-' then -n else n)

/-- The microseconds that the digits behind the point stand for; further digits do not count. -/
def microseconds (digits : List Char) : Nat :=
  let kept := digits.take 6
  Literal.digitsValue (kept ++ List.replicate (6 - kept.length) '0')

/-- A number of at least `least` and at most two digits, with what follows it. -/
def number? (least : Nat) (s : List Char) : Option (Nat × List Char) :=
  let digits := (s.take 2).takeWhile Char.isDigit
  if digits.length < least || digits.isEmpty then none
  else some (Literal.digitsValue digits, s.drop digits.length)

/-- The numbers of a time of day behind a date: hour, minute, second, microsecond and zone. -/
def time? (s : List Char) : Option (Nat × Nat × Nat × Nat × Option Int) := do
  let behind ← match s with
    | 'T' :: rest | 't' :: rest => some rest
    | _ =>
      let rest := s.dropWhile fun c => c = ' ' || c = '\t'
      if rest.length < s.length then some rest else none
  let (hour, rest) ← number? 1 behind
  let (minute, rest) ← (Tag.char? ':' rest).bind (number? 2)
  let (second, rest) ← (Tag.char? ':' rest).bind (number? 2)
  let (fraction, rest) := match rest with
    | '.' :: rest => (rest.takeWhile Char.isDigit, rest.dropWhile Char.isDigit)
    | _ => ([], rest)
  return (hour, minute, second, microseconds fraction, ← zone? rest)

/-- Reads a date or a moment. -/
def moment (text : String) : Except Problem Value :=
  let found := do
    let s := Tag.dropLastBreak text.toList
    let year := s.take 4
    if year.length < 4 || !year.all Char.isDigit then none
    let (month, rest) ← (Tag.char? '-' (s.drop 4)).bind (number? 1)
    let (day, rest) ← (Tag.char? '-' rest).bind (number? 1)
    let time ← if rest.isEmpty then some none else (time? rest).map some
    return (Literal.digitsValue year, month, day, time)
  match found with
  | none => .error .notAMoment
  | some (year, month, day, none) =>
    match Date.make year month day with
    | .ok date => .ok (.date date)
    | .error message => .error (.badCalendar message)
  | some (year, month, day, some (hour, minute, second, micro, zone)) =>
    match zone with
    | some n =>
      if 1440 ≤ n.natAbs then
        .error (.badCalendar ("offset must be a timedelta strictly between " ++
          "-timedelta(hours=24) and timedelta(hours=24), not " ++ Moment.spanText n ++ "."))
      else make year month day hour minute second micro zone
    | none => make year month day hour minute second micro zone
where
  make (year month day hour minute second micro : Nat) (zone : Option Int) :
      Except Problem Value :=
    match Moment.make year month day hour minute second micro zone with
    | .ok t => .ok (.moment t)
    | .error message => .error (.badCalendar message)

/-- Reads bytes. -/
def binary (text : String) : Except Problem Value :=
  if text.toList.all (·.toNat < 128) then
    match Text.base64? text.toList with
    | some bytes => .ok (.bytes bytes)
    | none => .error (.malformed .token)
  else .error (.malformed .token)

/-- The value of a scalar with a tag. -/
def value (tag : Tag) (text : String) : Except Problem Value :=
  match tag with
  | .null => .ok .null
  | .bool => (bool text).map .bool
  | .int => (int text).map .int
  | .float => (float text).map .float
  | .moment => moment text
  | .binary => binary text
  | .text => .ok (.text text)
  | _ => .error (.malformed .tag)

end Branchwork.Yaml.Scalar
