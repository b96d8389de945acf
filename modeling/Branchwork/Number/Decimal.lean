import Branchwork.Number.Binary64

/-!
# Decimal text of numbers

Reading: a decimal `digits · 10 ^ exponent` becomes the nearest floating-point number.

Writing: a floating-point number is written with the fewest digits that read back as it; among
those, with the digits nearest to it. A number is written positionally when the point falls within
sixteen digits and not more than three zeros follow it, and with an exponent of at least two digits
otherwise.
-/

namespace Branchwork

/-- A decimal number `digits · 10 ^ exponent` with a sign. -/
structure Decimal where
  negative : Bool
  digits : Nat
  exponent : Int
deriving DecidableEq, Repr

namespace Decimal

/-- The count of decimal digits of a number; zero has one. -/
def digitCount (n : Nat) : Nat := (Nat.toDigits 10 n).length

/-- The nearest floating-point number. The two bounds on the power of ten only save work: beyond
them every decimal is infinite or zero. -/
def toBinary64 (x : Decimal) : Binary64 :=
  let top := (digitCount x.digits : Int) + x.exponent
  if x.digits = 0 || top < -330 then .zero x.negative
  else if top > 330 then .infinite x.negative
  else if x.exponent < 0 then .ofRatio x.negative x.digits (Nat.pow 10 x.exponent.natAbs)
  else .ofRatio x.negative (x.digits * Nat.pow 10 x.exponent.natAbs) 1

end Decimal

namespace Binary64

/-- The reals that round to a magnitude, as whole numbers of a common unit `1 / unit`: the
magnitude itself and the two ends. -/
structure Interval where
  low : Nat
  value : Nat
  high : Nat
  unit : Nat
  closed : Bool

/-- The interval of a magnitude. Its ends belong to it when the mantissa is even; the gap below a
power of two is half as wide as the gap above. -/
def Magnitude.interval (x : Magnitude) : Interval :=
  let below := if x.mantissa = Nat.pow 2 52 && x.exponent > -1074 then 1 else 2
  let e := x.exponent - 2
  let up := if e < 0 then 1 else Nat.pow 2 e.natAbs
  { low := (4 * x.mantissa - below) * up
    value := 4 * x.mantissa * up
    high := (4 * x.mantissa + 2) * up
    unit := if e < 0 then Nat.pow 2 e.natAbs else 1
    closed := x.mantissa % 2 = 0 }

/-- The place of the decimal point: the least `p` with `num / den < 10 ^ p`. -/
def pointPlace (num den : Nat) : Int :=
  if den ≤ num then (Decimal.digitCount (num / den) : Int)
  else 1 - (Decimal.digitCount ((den - 1) / num) : Int)

/-- Whether the decimal `digits · 10 ^ exponent` lies in an interval. -/
def Interval.holds (i : Interval) (digits : Nat) (exponent : Int) : Bool :=
  let (n, d) := if exponent < 0 then (digits, Nat.pow 10 exponent.natAbs)
    else (digits * Nat.pow 10 exponent.natAbs, 1)
  let x := n * i.unit
  if i.closed then i.low * d ≤ x && x ≤ i.high * d else i.low * d < x && x < i.high * d

/-- The neighbour of an interval's value on the grid `10 ^ exponent` that lies in the interval;
the nearer one if both do, and the even one if both are equally near. -/
def Interval.nearest? (i : Interval) (exponent : Int) : Option Nat :=
  let (n, d) := if exponent < 0 then (i.value * Nat.pow 10 exponent.natAbs, i.unit)
    else (i.value, i.unit * Nat.pow 10 exponent.natAbs)
  let q := n / d
  match i.holds q exponent, i.holds (q + 1) exponent with
  | true, true => some (roundDiv n d)
  | true, false => some q
  | false, true => some (q + 1)
  | false, false => none

/-- The first grid, from `count` digits up to seventeen, with a point in the interval. -/
def Interval.shortest (i : Interval) (place : Int) : Nat → Nat → Nat × Int
  | 0, count => (i.value / i.unit, place - count)
  | tries + 1, count =>
    let exponent := place - count
    match i.nearest? exponent with
    | some digits => (digits, exponent)
    | none => i.shortest place tries (count + 1)

/-- The shortest digits of a magnitude other than zero, without trailing zeros, and the place of
the point before or after them. -/
def Magnitude.shortest (x : Magnitude) : List Char × Int :=
  let i := x.interval
  let (digits, exponent) := i.shortest (pointPlace i.value i.unit) 17 1
  let written := Nat.toDigits 10 digits
  ((written.reverse.dropWhile (· = '0')).reverse, (written.length : Int) + exponent)

/-- How the exponent of ten is written: a sign and at least two digits. -/
def exponentText (e : Int) : List Char :=
  let written := Nat.toDigits 10 e.natAbs
  'e' :: (if e < 0 then '-' else '+') :: (if written.length < 2 then '0' :: written else written)

/-- Writes digits with the decimal point at a place. -/
def layout (digits : List Char) (place : Int) : List Char :=
  if -4 < place && place ≤ 16 then
    if place ≤ 0 then '0' :: '.' :: (List.replicate place.natAbs '0' ++ digits)
    else
      let whole := place.toNat
      if digits.length ≤ whole then
        digits ++ List.replicate (whole - digits.length) '0' ++ ['.', '0']
      else digits.take whole ++ '.' :: digits.drop whole
  else
    match digits with
    | [d] => d :: exponentText (place - 1)
    | d :: more => d :: '.' :: more ++ exponentText (place - 1)
    | [] => []

/-- How the numbers without digits are named. -/
structure Names where
  infinity : String
  nan : String

/-- The text of a number, given the names of the numbers without digits. -/
def render (names : Names) : Binary64 → String
  | .nan => names.nan
  | .infinite negative => (if negative then "-" else "") ++ names.infinity
  | .finite negative x =>
    let body := if x.mantissa = 0 then ['0', '.', '0'] else
      let (digits, place) := x.shortest
      layout digits place
    (if negative then "-" else "") ++ String.ofList body

/-- The plain text of a number. -/
def text (x : Binary64) : String := render ⟨"inf", "nan"⟩ x

/-- A number rounded to a whole one, a tie to the even one, as text. -/
def wholeText : Binary64 → String
  | .finite negative x =>
    let (n, d) := x.ratio
    (if negative then "-" else "") ++ toString (roundDiv n d)
  | x => x.text

end Binary64

end Branchwork
