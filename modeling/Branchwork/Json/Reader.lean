import Branchwork.Number.Decimal
import Branchwork.Number.DigitLimit
import Branchwork.Text.Half
import Branchwork.Text.Hex
import Branchwork.Value.Basic

/-!
# Reading JSON

`Json.read` reads a JSON document: one value with blanks around it. Besides the values of JSON it
takes `NaN`, `Infinity` and `-Infinity`; of two entries with one key the later wins. A document
that is not JSON is refused with the first problem and the place where it lies.

The readers of parts take the text that is left and give a value with the text after it. A problem
carries the count of characters left at its place, from which the place is computed once.
-/

namespace Branchwork.Json

/-- What can be wrong with a document. -/
inductive Problem where
  | noValue
  | noKey
  | noColon
  | noComma
  | openString
  | control
  | badEscape
  | badUnicodeEscape
  | extra
  | byteOrderMark
  | tooManyDigits (count : Nat)
deriving DecidableEq, Repr

/-- A problem and the count of characters from its place to the end. -/
structure Stop where
  problem : Problem
  left : Nat
deriving DecidableEq, Repr

/-- A part that was read, with the text after it. -/
abbrev Reading (α : Type) := Except Stop (α × List Char)

/-- Stops at a place. -/
def stopAt {α : Type} (problem : Problem) (s : List Char) : Except Stop α :=
  .error ⟨problem, s.length⟩

/-- The four blanks of JSON. -/
def isBlank (c : Char) : Bool := c = ' ' || c = '\t' || c = '\n' || c = '\r'

/-- The text after the blanks. -/
def skipBlanks (s : List Char) : List Char := s.dropWhile isBlank

/-- The character that a one-letter escape stands for. -/
def simpleEscape? (c : Char) : Option Char :=
  if c = '"' || c = '\\' || c = '/' then some c
  else if c = 'b' then some '\x08'
  else if c = 'f' then some '\x0c'
  else if c = 'n' then some '\n'
  else if c = 'r' then some '\r'
  else if c = 't' then some '\t'
  else none

/-- Puts a character in front of a text that was read. -/
def prepend (c : Char) : Reading (List Char) → Reading (List Char)
  | .ok (read, rest) => .ok (c :: read, rest)
  | .error stop => .error stop

/-- Reads the text of a string behind its opening quote; `opening` counts the characters from that
quote to the end. Two halves in a row read as one character, a half alone as its stand-in. -/
def stringBody (opening : Nat) : List Char → Reading (List Char)
  | [] => .error ⟨.openString, opening⟩
  | '\\' :: 'u' :: a :: b :: c :: d :: rest =>
    match Text.hexNumber? [a, b, c, d] with
    | none => .error ⟨.badUnicodeEscape, rest.length + 5⟩
    | some n =>
      if rest.isEmpty then .error ⟨.badUnicodeEscape, rest.length + 5⟩
      else
        match rest with
        | '\\' :: 'u' :: e :: f :: g :: h :: after =>
          if Text.isHighHalf n && !after.isEmpty then
            match Text.hexNumber? [e, f, g, h] with
            | none => .error ⟨.badUnicodeEscape, after.length + 5⟩
            | some m =>
              if Text.isLowHalf m then
                prepend (Text.charOfCode (Text.joinHalves n m)) (stringBody opening after)
              else
                prepend (Text.charOfCode n)
                  (stringBody opening ('\\' :: 'u' :: e :: f :: g :: h :: after))
          else
            prepend (Text.charOfCode n)
              (stringBody opening ('\\' :: 'u' :: e :: f :: g :: h :: after))
        | rest => prepend (Text.charOfCode n) (stringBody opening rest)
  | '\\' :: 'u' :: rest => .error ⟨.badUnicodeEscape, rest.length + 1⟩
  | ['\\'] => .error ⟨.openString, opening⟩
  | '\\' :: c :: rest =>
    match simpleEscape? c with
    | some escaped => prepend escaped (stringBody opening rest)
    | none => .error ⟨.badEscape, rest.length + 2⟩
  | c :: rest =>
    if c = '"' then .ok ([], rest)
    else if c.toNat < 0x20 then .error ⟨.control, rest.length + 1⟩
    else prepend c (stringBody opening rest)

/-- The number that decimal digits stand for. -/
def decimalNumber (digits : List Char) : Nat :=
  digits.foldl (fun n c => 10 * n + (c.toNat - 48)) 0

/-- The fraction of a number: the digits behind a point, if there are any. -/
def fraction (s : List Char) : List Char × List Char :=
  match s with
  | '.' :: rest =>
    let digits := rest.takeWhile Char.isDigit
    if digits.isEmpty then ([], s) else (digits, rest.dropWhile Char.isDigit)
  | _ => ([], s)

/-- The exponent of a number, if there is one. -/
def exponent? (s : List Char) : Option Int × List Char :=
  match s with
  | [] => (none, s)
  | c :: rest =>
    if c = 'e' || c = 'E' then
      let (negative, body) := match rest with
        | '-' :: body => (true, body)
        | '+' :: body => (false, body)
        | body => (false, body)
      let digits := body.takeWhile Char.isDigit
      if digits.isEmpty then (none, s)
      else
        let n : Int := decimalNumber digits
        (some (if negative then -n else n), body.dropWhile Char.isDigit)
    else (none, s)

/-- Reads a number whose sign has been taken; `start` is the text from its sign on. -/
def unsigned (negative : Bool) (start s : List Char) : Reading Value :=
  let whole := match s with
    | '0' :: _ => ['0']
    | _ => s.takeWhile Char.isDigit
  if whole.isEmpty then stopAt .noValue start
  else
    let (places, s) := fraction (s.drop whole.length)
    let (power, s) := exponent? s
    if places.isEmpty && power.isNone then
      if DigitLimit.greatest < whole.length then .error ⟨.tooManyDigits whole.length, 0⟩
      else
        let n : Int := decimalNumber whole
        .ok (.int (if negative then -n else n), s)
    else
      let x : Decimal := ⟨negative, decimalNumber (whole ++ places), power.getD 0 - places.length⟩
      .ok (.float x.toBinary64, s)

/-- Reads a number. -/
def number (s : List Char) : Reading Value :=
  match s with
  | '-' :: rest => unsigned true s rest
  | _ => unsigned false s s

/-- The words of JSON and what they stand for. -/
def keywords : List (List Char × Value) :=
  [("null".toList, .null), ("true".toList, .bool true), ("false".toList, .bool false),
    ("NaN".toList, .float .nan), ("Infinity".toList, .float (.infinite false)),
    ("-Infinity".toList, .float (.infinite true))]

/-- Reads a value that holds no further values. -/
def scalar (s : List Char) : Reading Value :=
  match s with
  | '"' :: rest => (stringBody s.length rest).map fun (read, after) =>
      (.text (String.ofList read), after)
  | _ =>
    match keywords.find? fun (word, _) => word.isPrefixOf s with
    | some (word, value) => .ok (value, s.drop word.length)
    | none => number s

mutual

/-- Reads a value. Each call spends one unit of `fuel`. -/
def value : Nat → List Char → Reading Value
  | 0, s => stopAt .noValue s
  | fuel + 1, s =>
    match s with
    | '{' :: rest =>
      let rest := skipBlanks rest
      match rest with
      | '}' :: after => .ok (.map [], after)
      | _ => (entries fuel [] rest).map fun (read, after) => (.map read, after)
    | '[' :: rest =>
      let rest := skipBlanks rest
      match rest with
      | ']' :: after => .ok (.list [], after)
      | _ => (items fuel rest).map fun (read, after) => (.list read, after)
    | s => scalar s

/-- Reads the members of a list from the first on, with the closing bracket. -/
def items : Nat → List Char → Reading (List Value)
  | 0, s => stopAt .noValue s
  | fuel + 1, s =>
    match value fuel s with
    | .error stop => .error stop
    | .ok (item, rest) =>
      let rest := skipBlanks rest
      match rest with
      | ']' :: after => .ok ([item], after)
      | ',' :: after =>
        (items fuel (skipBlanks after)).map fun (more, after) => (item :: more, after)
      | _ => stopAt .noComma rest

/-- Reads the entries of a mapping, with the closing brace; `read` holds the entries before. -/
def entries : Nat → Mapping → List Char → Reading Mapping
  | 0, _, s => stopAt .noValue s
  | fuel + 1, read, s =>
    match s with
    | '"' :: body =>
      match stringBody s.length body with
      | .error stop => .error stop
      | .ok (key, rest) =>
        let rest := skipBlanks rest
        match rest with
        | ':' :: rest =>
          match value fuel (skipBlanks rest) with
          | .error stop => .error stop
          | .ok (v, rest) =>
            let read := Mapping.put (.text (String.ofList key)) v read
            let rest := skipBlanks rest
            match rest with
            | '}' :: after => .ok (read, after)
            | ',' :: after => entries fuel read (skipBlanks after)
            | _ => stopAt .noComma rest
        | _ => stopAt .noColon rest
    | _ => stopAt .noKey s

end

/-- Reads a document: a value with blanks around it and nothing else. -/
def document (s : List Char) : Except Stop Value :=
  if s.head? = some '\ufeff' then stopAt .byteOrderMark s
  else
    match value (2 * s.length + 1) (skipBlanks s) with
    | .error stop => .error stop
    | .ok (v, rest) =>
      let rest := skipBlanks rest
      if rest.isEmpty then .ok v else stopAt .extra rest

/-- A problem and its place: the count of characters before it. -/
structure Error where
  problem : Problem
  position : Nat
  line : Nat
  column : Nat
deriving DecidableEq, Repr

/-- What a problem is called. -/
def Problem.message : Problem → String
  | .noValue => "Expecting value"
  | .noKey => "Expecting property name enclosed in double quotes"
  | .noColon => "Expecting ':' delimiter"
  | .noComma => "Expecting ',' delimiter"
  | .openString => "Unterminated string starting at"
  | .control => "Invalid control character at"
  | .badEscape => "Invalid \\escape"
  | .badUnicodeEscape => "Invalid \\uXXXX escape"
  | .extra => "Extra data"
  | .byteOrderMark => "Unexpected UTF-8 BOM (decode using utf-8-sig)"
  | .tooManyDigits count => DigitLimit.message count

/-- The problem with its place in words. -/
def Error.message (e : Error) : String :=
  match e.problem with
  | .tooManyDigits _ => e.problem.message
  | _ => s!"{e.problem.message}: line {e.line} column {e.column} (char {e.position})"

/-- The place of a problem in a document. -/
def Error.ofStop (document : List Char) (stop : Stop) : Error :=
  let before := document.take (document.length - stop.left)
  { problem := stop.problem
    position := before.length
    line := before.count '\n' + 1
    column := (before.reverse.takeWhile (· ≠ '\n')).length + 1 }

/-- Reads a JSON document. -/
def read (text : String) : Except Error Value :=
  (document text.toList).mapError (Error.ofStop text.toList)

end Branchwork.Json
