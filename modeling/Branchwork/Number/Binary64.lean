/-!
# Floating-point numbers

A floating-point number is a sign with a magnitude `mantissa · 2 ^ exponent`, an infinity, or "not
a number". A magnitude is kept in its one canonical form: 53 bits of mantissa, or fewer at the
least exponent. `Binary64.ofRatio` rounds a quotient to the nearest such number, a tie to the even
mantissa; a quotient beyond the greatest magnitude becomes infinite.
-/

namespace Branchwork

/-- The pairs that stand for a magnitude in the one form that is kept. -/
def Binary64.Canonical (mantissa : Nat) (exponent : Int) : Prop :=
  (Nat.pow 2 52 ≤ mantissa ∧ mantissa < Nat.pow 2 53 ∧ -1074 ≤ exponent ∧ exponent ≤ 971) ∨
    (mantissa < Nat.pow 2 52 ∧ exponent = -1074)

instance (m : Nat) (e : Int) : Decidable (Binary64.Canonical m e) :=
  inferInstanceAs (Decidable (_ ∨ _))

/-- The magnitude `mantissa · 2 ^ exponent`. -/
structure Binary64.Magnitude where
  mantissa : Nat
  exponent : Int
  canonical : Binary64.Canonical mantissa exponent
deriving DecidableEq

/-- A floating-point number of 64 bits. -/
inductive Binary64 where
  | finite (negative : Bool) (size : Binary64.Magnitude)
  | infinite (negative : Bool)
  | nan
deriving DecidableEq

namespace Binary64

/-- The number with these parts; parts without a canonical form stand for an overflow. -/
def ofParts (negative : Bool) (mantissa : Nat) (exponent : Int) : Binary64 :=
  if h : Canonical mantissa exponent then .finite negative ⟨mantissa, exponent, h⟩
  else .infinite negative

/-- Zero, with its sign. -/
def zero (negative : Bool) : Binary64 := ofParts negative 0 (-1074)

instance : Inhabited Binary64 := ⟨zero false⟩

/-- The quotient rounded to a whole number, a tie to the even one. -/
def roundDiv (num den : Nat) : Nat :=
  let q := num / den
  let twice := 2 * (num % den)
  if twice > den || (twice == den && q % 2 == 1) then q + 1 else q

/-- Numerator and denominator of `num / den / 2 ^ exponent`. -/
def scaled (num den : Nat) (exponent : Int) : Nat × Nat :=
  if exponent < 0 then (num * Nat.pow 2 exponent.natAbs, den)
  else (num, den * Nat.pow 2 exponent.natAbs)

/-- The exponent at which a quotient has 53 bits before the point, but never below the least. -/
def exponentFor (num den : Nat) : Int :=
  let guess : Int := (num.log2 : Int) - den.log2 - 53
  let (n, d) := scaled num den guess
  max (if n / d < Nat.pow 2 53 then guess else guess + 1) (-1074)

/-- The number nearest to `num / den`, with the given sign. -/
def ofRatio (negative : Bool) (num den : Nat) : Binary64 :=
  if num = 0 then zero negative
  else
    let e := exponentFor num den
    let (n, d) := scaled num den e
    let m := roundDiv n d
    if m = Nat.pow 2 53 then ofParts negative (Nat.pow 2 52) (e + 1) else ofParts negative m e

/-- The number nearest to an integer. -/
def ofInt (i : Int) : Binary64 := ofRatio (i < 0) i.natAbs 1

/-- Numerator and denominator of a magnitude. -/
def Magnitude.ratio (x : Magnitude) : Nat × Nat := scaled x.mantissa 1 (-x.exponent)

/-- The integer that a number equals, if it does. -/
def toInt? : Binary64 → Option Int
  | .finite negative x =>
    let (n, d) := x.ratio
    if n % d = 0 then some (if negative then -((n / d : Nat) : Int) else (n / d : Nat)) else none
  | _ => none

/-- The number with the other sign. -/
def negate : Binary64 → Binary64
  | .finite negative x => .finite (!negative) x
  | .infinite negative => .infinite (!negative)
  | .nan => .nan

/-- Numerator and denominator of a number with its sign; none for the numbers without digits. -/
def signedRatio? : Binary64 → Option (Int × Nat)
  | .finite negative x =>
    let (n, d) := x.ratio
    some (if negative then -(n : Int) else n, d)
  | _ => none

/-- The sum of two numbers, rounded. -/
def add (x y : Binary64) : Binary64 :=
  match x.signedRatio?, y.signedRatio?, x, y with
  | some (m, c), some (n, d), .finite s _, .finite t _ =>
    let sum := m * d + n * c
    if sum = 0 then zero (s && t) else ofRatio (sum < 0) sum.natAbs (c * d)
  | _, _, .infinite s, .infinite t => if s = t then .infinite s else .nan
  | _, _, .infinite s, .finite _ _ | _, _, .finite _ _, .infinite s => .infinite s
  | _, _, _, _ => .nan

/-- The product of a number and a whole number above zero, rounded. -/
def scale (x : Binary64) (n : Nat) : Binary64 :=
  match x with
  | .finite negative x =>
    let (m, d) := x.ratio
    ofRatio negative (m * n) d
  | x => x

/-- Equality of numbers: the two zeros are equal, and "not a number" equals nothing. -/
def equals : Binary64 → Binary64 → Bool
  | .finite s x, .finite t y => x = y && (s = t || x.mantissa = 0)
  | .infinite s, .infinite t => s = t
  | _, _ => false

/-- Whether a number is zero. -/
def isZero : Binary64 → Bool
  | .finite _ x => x.mantissa = 0
  | _ => false

/-- Whether a number is zero or below. -/
def isNonPositive : Binary64 → Bool
  | .finite negative x => negative || x.mantissa = 0
  | .infinite negative => negative
  | .nan => false

end Binary64

end Branchwork
