/-!
# Tags

The tag of a node says what kind of value it stands for. A plain scalar without a tag gets one from
its form: the words for the booleans and for null, the forms of numbers, dates and moments, and the
marks `<<` and `=`; every other scalar is a text.
-/

namespace Branchwork.Yaml

/-- The kinds of values that a node can stand for. The tag `unmergeable` is never written: it marks
a mapping whose merge fails. -/
inductive Tag where
  | null
  | bool
  | int
  | float
  | moment
  | binary
  | pairs
  | set
  | text
  | sequence
  | mapping
  | merge
  | value
  | unmergeable
  | other (name : String)
deriving DecidableEq, Repr

namespace Tag

/-- What the full names of the known tags begin with. -/
def nameStart : String := "tag:yaml.org,2002:"

/-- The tags with a name of their own, below `nameStart`. -/
def named : List (String × Tag) :=
  [("null", .null), ("bool", .bool), ("int", .int), ("float", .float), ("timestamp", .moment),
    ("binary", .binary), ("omap", .pairs), ("pairs", .pairs), ("set", .set), ("str", .text),
    ("seq", .sequence), ("map", .mapping), ("merge", .merge), ("value", .value)]

/-- The tag with a full name. -/
def ofName (name : String) : Tag :=
  (named.lookup ((name.dropPrefix? nameStart).elim "" toString)).getD (.other name)

/-! ## Forms of plain scalars -/

/-- A digit of a number in base sixty may be followed by one up to nine only if it is at most
five. -/
def isSixty : List Char → Bool
  | [c] => c.isDigit
  | [c, d] => '0' ≤ c && c ≤ '5' && d.isDigit
  | _ => false

/-- The parts of a text between the characters `mark`. -/
def splitAt (mark : Char) : List Char → List (List Char)
  | [] => [[]]
  | c :: rest =>
    if c = mark then [] :: splitAt mark rest
    else
      match splitAt mark rest with
      | first :: more => (c :: first) :: more
      | [] => [[c]]

/-- Drops a sign. -/
def dropSign : List Char → List Char
  | c :: rest => if c = '-' || c = '+' then rest else c :: rest
  | [] => []

/-- A digit, or the underscore that may stand between digits. -/
def isDigitOrMark (c : Char) : Bool := c.isDigit || c = '_'

/-- Digits with underscores between them. -/
def isDigits : List Char → Bool
  | c :: rest => c.isDigit && rest.all isDigitOrMark
  | [] => false

/-- The form of an integer behind its sign: binary, octal, hexadecimal, decimal, or decimal digits
of base sixty between colons. -/
def isUnsignedInt : List Char → Bool
  | ['0'] => true
  | '0' :: 'b' :: rest => !rest.isEmpty && rest.all fun c => c = '0' || c = '1' || c = '_'
  | '0' :: 'x' :: rest =>
    !rest.isEmpty && rest.all fun c =>
      c.isDigit || ('a' ≤ c && c ≤ 'f') || ('A' ≤ c && c ≤ 'F') || c = '_'
  | '0' :: rest => !rest.isEmpty && rest.all fun c => ('0' ≤ c && c ≤ '7') || c = '_'
  | s =>
    match splitAt ':' s with
    | first :: more => isDigits first && more.all isSixty
    | [] => false

/-- An exponent behind the digits of a number; it needs its sign. -/
def isExponent : List Char → Bool
  | [] => true
  | e :: sign :: rest =>
    (e = 'e' || e = 'E') && (sign = '-' || sign = '+') && !rest.isEmpty && rest.all Char.isDigit
  | _ => false

/-- The fraction behind a point, with an exponent. -/
def isFraction (s : List Char) : Bool := isExponent (s.dropWhile isDigitOrMark)

/-- The form of a number with a point, behind its sign. -/
def isUnsignedFloat (s : List Char) : Bool :=
  match s.dropWhile (· ≠ '.') with
  | '.' :: behind =>
    match splitAt ':' (s.takeWhile (· ≠ '.')) with
    | [whole] => isDigits whole && isFraction behind
    | first :: more => isDigits first && more.all isSixty && behind.all isDigitOrMark
    | [] => false
  | _ => false

/-- The form of a number with a point. -/
def isFloat (s : List Char) : Bool :=
  match s with
  | '.' :: c :: rest =>
    (c.isDigit && isFraction rest) || [".inf", ".Inf", ".INF"].contains (String.ofList s) ||
      [".nan", ".NaN", ".NAN"].contains (String.ofList s)
  | _ =>
    isUnsignedFloat (dropSign s) ||
      (s ≠ dropSign s && [".inf", ".Inf", ".INF"].contains (String.ofList (dropSign s)))

/-- The words for the booleans. -/
def boolWords : List String :=
  ["yes", "Yes", "YES", "no", "No", "NO", "true", "True", "TRUE", "false", "False", "FALSE",
    "on", "On", "ON", "off", "Off", "OFF"]

/-- The words for null. -/
def nullWords : List String := ["~", "null", "Null", "NULL", ""]

/-- One or two digits, with what follows them; the longer reading comes first. -/
def oneOrTwoDigits : List Char → List (List Char)
  | c :: d :: rest =>
    if c.isDigit then (if d.isDigit then [rest, d :: rest] else [d :: rest]) else []
  | [c] => if c.isDigit then [[]] else []
  | [] => []

/-- A fixed number of digits, with what follows them. -/
def digitsExactly : Nat → List Char → Option (List Char)
  | 0, s => some s
  | n + 1, c :: rest => if c.isDigit then digitsExactly n rest else none
  | _ + 1, [] => none

/-- A character, with what follows it. -/
def char? (mark : Char) : List Char → Option (List Char)
  | c :: rest => if c = mark then some rest else none
  | [] => none

/-- The time zone at the end of a moment. -/
def isZone (s : List Char) : Bool :=
  match s.dropWhile fun c => c = ' ' || c = '\t' with
  | [] => s.isEmpty
  | ['Z'] => true
  | sign :: rest =>
    (sign = '-' || sign = '+') && (oneOrTwoDigits rest).any fun rest =>
      rest.isEmpty || ((char? ':' rest).bind (digitsExactly 2)) = some []

/-- The time of a moment behind its date. -/
def isTime (s : List Char) : Bool :=
  let behind := match s with
    | 'T' :: rest | 't' :: rest => some rest
    | _ =>
      let rest := s.dropWhile fun c => c = ' ' || c = '\t'
      if rest.length < s.length then some rest else none
  match behind with
  | none => false
  | some rest =>
    (oneOrTwoDigits rest).any fun rest =>
      match (char? ':' rest).bind (digitsExactly 2) |>.bind (char? ':') |>.bind
          (digitsExactly 2) with
      | none => false
      | some rest =>
        match rest with
        | '.' :: fraction => isZone (fraction.dropWhile Char.isDigit)
        | _ => isZone rest

/-- The form of a date, or of a moment. -/
def isMoment (s : List Char) : Bool :=
  match (digitsExactly 4 s).bind (char? '-') with
  | none => false
  | some rest =>
    (digitsExactly 2 rest |>.bind (char? '-') |>.bind (digitsExactly 2)) = some [] ||
      (oneOrTwoDigits rest).any fun rest =>
        match char? '-' rest with
        | none => false
        | some rest => (oneOrTwoDigits rest).any isTime

/-- A text without one line feed at its end. -/
def dropLastBreak (s : List Char) : List Char :=
  if s.getLast? = some '\n' then s.dropLast else s

/-- The tag of a plain scalar. A line feed at its end does not count. -/
def ofPlain (text : String) : Tag :=
  let chars := dropLastBreak text.toList
  let word := String.ofList chars
  if boolWords.contains word then .bool
  else if isFloat chars then .float
  else if isUnsignedInt (dropSign chars) then .int
  else if word = "<<" then .merge
  else if nullWords.contains word && text ≠ "\n" then .null
  else if isMoment chars then .moment
  else if word = "=" then .value
  else .text

end Tag

end Branchwork.Yaml
