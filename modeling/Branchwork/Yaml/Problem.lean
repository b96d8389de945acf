import Branchwork.Number.Literal

/-!
# What can be wrong with a YAML text

A text is malformed, or a scalar in it claims to be a value that does not exist: a number without
digits, a thirteenth month, a code beyond the last character.
-/

namespace Branchwork.Yaml

/-- The part of a text that breaks the rules of the format. -/
inductive Part where
  | character
  | token
  | layout
  | anchor
  | tag
  | merge
  | key
  | document
deriving DecidableEq, Repr

/-- A reason to refuse a text. -/
inductive Problem where
  | malformed (part : Part)
  | charCode (code : Nat)
  | noDigits
  | badInteger (base : Nat) (text : String)
  | tooManyDigits (count : Nat)
  | badFloat (text : String)
  | tooLarge
  | badBoolean (text : String)
  | badCalendar (message : String)
  | notAMoment
  | momentOfMapping
deriving DecidableEq, Repr

namespace Problem

/-- The codes from here on are beyond those that are looked up at all. -/
def codeBound : Nat := 0x80000000

/-- The word for the kind of a problem. -/
def kind : Problem → String
  | .malformed _ => "YAMLError"
  | .charCode code => if codeBound ≤ code then "OverflowError" else "ValueError"
  | .tooLarge => "OverflowError"
  | .noDigits => "IndexError"
  | .badBoolean _ => "KeyError"
  | .notAMoment => "AttributeError"
  | .momentOfMapping => "TypeError"
  | .badInteger _ _ | .tooManyDigits _ | .badFloat _ | .badCalendar _ => "ValueError"

/-- A problem in words. -/
def message : Problem → String
  | .malformed _ => ""
  | .charCode code =>
    if codeBound ≤ code then "Python int too large to convert to C int"
    else "chr() arg not in range(0x110000)"
  | .noDigits => "string index out of range"
  | .badInteger base text => Literal.IntProblem.notDigits.message base text
  | .tooManyDigits count => DigitLimit.message count
  | .badFloat text => s!"could not convert string to float: {quoteText text}"
  | .tooLarge => "int too large to convert to float"
  | .badBoolean text => quoteText text
  | .badCalendar message => message
  | .notAMoment => "'NoneType' object has no attribute 'groupdict'"
  | .momentOfMapping => "expected string or bytes-like object, got 'list'"

end Problem

end Branchwork.Yaml
