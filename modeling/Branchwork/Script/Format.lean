import Branchwork.Number.Literal
import Branchwork.Script.Arithmetic

/-!
# Formatted output of a shell

The escapes of `echo`, and the formats of `printf`: a format is filled with words as often as there
are words for it; a word that is missing counts as empty or as zero. A number that is written with
something behind it is used as far as it goes, with a warning.
-/

namespace Branchwork.Script.Format

/-! ## Escapes -/

/-- The number of up to `most` octal digits, with the count of the digits. -/
def octal (most : Nat) (s : List Char) : Nat × Nat :=
  let digits := (s.take most).takeWhile fun c => '0' ≤ c && c ≤ '7'
  (digits.foldl (fun n c => 8 * n + (c.toNat - 48)) 0, digits.length)

/-- The character that an escape of one letter stands for. -/
def letter? (c : Char) : Option Char :=
  ([('a', '\x07'), ('b', '\x08'), ('f', '\x0c'), ('n', '\n'), ('r', '\r'), ('t', '\t'),
    ('v', '\x0b'), ('\\', '\\')] : List (Char × Char)).lookup c

/-- The character that the text behind a backslash begins with, and the count of the characters
that stand for it; a backslash that starts no escape stands for itself. -/
def escape (s : List Char) : Char × Nat :=
  let (code, length) := octal 3 s
  if 0 < length then (Char.ofNat (code % 256), length)
  else
    match s with
    | c :: _ => (letter? c).elim ('\\', 0) fun found => (found, 1)
    | [] => ('\\', 0)

/-- A text with its escapes, and whether `\c` ended it. An octal number may have a zero in front of
it; the next `skip` characters are already read. -/
def unescape : (skip : Nat) → List Char → List Char × Bool
  | _, [] => ([], false)
  | skip + 1, _ :: rest => unescape skip rest
  | 0, c :: rest =>
    let follow (c : Char) (skip : Nat) :=
      let (more, ended) := unescape skip rest
      (c :: more, ended)
    if c ≠ '\\' then follow c 0
    else
      match rest with
      | 'c' :: _ => ([], true)
      | '0' :: digits =>
        let (code, length) := octal 3 digits
        follow (Char.ofNat (code % 256)) (length + 1)
      | _ =>
        let (meant, length) := escape rest
        follow meant length

/-- What `echo` writes for its words. -/
def echo (words : List String) : List Char :=
  let (words, ending) := if words.head? = some "-n" then (words.drop 1, []) else (words, ['\n'])
  write ending words
where
  /-- The words with spaces between them, up to one that ends the output. -/
  write (ending : List Char) : List String → List Char
    | [] => ending
    | word :: rest =>
      let (text, ended) := unescape 0 word.toList
      if ended then text else text ++ (if rest.isEmpty then [] else [' ']) ++ write ending rest

/-! ## Fields of a format -/

/-- How a field is laid out. -/
structure Layout where
  flags : List Char
  width : Nat
  precision : Option Nat

/-- Whether a layout has a flag. -/
def Layout.has (l : Layout) (flag : Char) : Bool := l.flags.contains flag

/-- Fills a text up with blanks to the width of a layout. -/
def Layout.fill (l : Layout) (text : List Char) : List Char :=
  let blanks := List.replicate (l.width - text.length) ' '
  if l.has '-' then text ++ blanks else blanks ++ text

/-- Lays out a number: its sign or prefix, and its digits. Zeros fill it up to its precision, or to
its width if zeros are asked for. -/
def Layout.number (l : Layout) (front digits : List Char) : List Char :=
  let least := match l.precision with
    | some n => n
    | none => if l.has '0' && !l.has '-' then l.width - front.length else 1
  l.fill (front ++ List.replicate (least - digits.length) '0' ++ digits)

/-- The digits of a number; zero with a precision of zero has none. -/
def Layout.digits (l : Layout) (base n : Nat) : List Char :=
  if n = 0 && l.precision = some 0 then [] else Nat.toDigits base n

/-- The sign of a number. -/
def Layout.sign (l : Layout) (negative : Bool) : List Char :=
  if negative then ['-'] else if l.has '+' then ['+'] else if l.has ' ' then [' '] else []

/-- Lays out an integer as a directive asks. -/
def Layout.integer (l : Layout) (directive : Char) (n : Int) : List Char :=
  let unsigned := (n % (Nat.pow 2 64 : Nat)).toNat
  match directive with
  | 'o' =>
    let digits := l.digits 8 unsigned
    l.number [] (if l.has '#' && digits.head? ≠ some '0' then '0' :: digits else digits)
  | 'x' => l.number (if l.has '#' && n ≠ 0 then ['0', 'x'] else []) (l.digits 16 unsigned)
  | 'X' =>
    l.number (if l.has '#' && n ≠ 0 then ['0', 'X'] else [])
      ((l.digits 16 unsigned).map Char.toUpper)
  | 'u' => l.number [] (l.digits 10 unsigned)
  | _ => l.number (l.sign (n < 0)) (l.digits 10 n.natAbs)

/-- Lays out a number with a fixed count of digits behind its point. -/
def Layout.fixed (l : Layout) (x : Binary64) : List Char :=
  match x.signedRatio? with
  | none => l.fill x.text.toList
  | some (n, d) =>
    let places := l.precision.getD 6
    let digits := Nat.toDigits 10 (Binary64.roundDiv (n.natAbs * Nat.pow 10 places) d)
    let digits := List.replicate (places + 1 - digits.length) '0' ++ digits
    let point := digits.length - places
    let shown := digits.take point ++ (if places = 0 then [] else '.' :: digits.drop point)
    { l with precision := none }.number (l.sign (n < 0)) shown

/-! ## Formats -/

/-- What was written, the warnings, whether an error or `\c` has ended the output, and whether it
was an error. -/
structure Output where
  text : List Char
  warnings : List String
  ended : Bool
  failed : Bool

/-- The output in front of another one. -/
def Output.after (o : Output) (text : List Char) (warnings : List String) : Output :=
  { o with text := text ++ o.text, warnings := warnings ++ o.warnings }

/-- The integer that a word stands for, with warnings. A quote asks for the code of the character
behind it. -/
def integerOf (word : String) : Int × List String :=
  match word.toList with
  | [] => (0, [])
  | '\'' :: rest | '"' :: rest => (((rest.head?.map Char.toNat).getD 0 : Nat), [])
  | chars =>
    let trimmed := chars.dropWhile Arithmetic.isBlank
    let negative := trimmed.head? = some '-'
    let body := if negative || trimmed.head? = some '+' then trimmed.drop 1 else trimmed
    let (n, length) := Arithmetic.unsigned body
    if length = 0 then (0, [s!"{word}: expected numeric value"])
    else
      let n : Int := if negative then -n else n
      let bounded := max (-Arithmetic.greatest - 1) (min Arithmetic.greatest n)
      let warnings :=
        if length < body.length then [s!"{word}: not completely converted"]
        else if n ≠ bounded then [s!"{word}: Numerical result out of range"]
        else []
      (bounded, warnings)

/-- The number that a word stands for, with warnings. -/
def floatOf (word : String) : Binary64 × List String :=
  if word = "" then (.zero false, [])
  else
    match Literal.float? word.toList with
    | some x => (x, [])
    | none => (.zero false, [s!"{word}: expected numeric value"])

/-- A width or a precision at the front of a format, with what follows and the words that are left;
a star takes it from the words. -/
def amount (words : List String) (s : List Char) : Nat × List Char × List String :=
  match s with
  | '*' :: rest => ((integerOf (words.headD "")).1.natAbs, rest, words.drop 1)
  | s =>
    let digits := s.takeWhile Char.isDigit
    (digits.foldl (fun n c => 10 * n + (c.toNat - 48)) 0, s.drop digits.length, words)

/-- The error for a directive that is none: the words that are left are not used. -/
def failure (message : String) : Output := ⟨[], [message], true, true⟩

/-- Fills a format once; gives the output and the words that are left. -/
def fill : Nat → List Char → List String → Output × List String
  | 0, _, words | _, [], words => (⟨[], [], false, false⟩, words)
  | fuel + 1, c :: rest, words =>
    let emit (text : List Char) (warnings : List String) (rest : List Char)
        (words : List String) :=
      let (more, words) := fill fuel rest words
      (more.after text warnings, words)
    if c = '\\' then
      let (meant, length) := escape rest
      emit [meant] [] (rest.drop length) words
    else if c ≠ '%' then emit [c] [] rest words
    else if rest.head? = some '%' then emit ['%'] [] (rest.drop 1) words
    else
      let flags := rest.takeWhile fun c => "#-+ 0".toList.contains c
      let (width, behind, words) := amount words (rest.drop flags.length)
      let (precision, behind, words) :=
        if behind.head? = some '.' then
          let (n, behind, words) := amount words (behind.drop 1)
          (some n, behind, words)
        else (none, behind, words)
      let layout : Layout := ⟨flags, width, precision⟩
      match behind with
      | [] => (failure "missing format character", words)
      | directive :: behind =>
        let word := words.headD ""
        let shorten (s : List Char) := precision.elim s s.take
        if directive = 's' then emit (layout.fill (shorten word.toList)) [] behind (words.drop 1)
        else if directive = 'b' then
          let (text, ended) := unescape 0 word.toList
          if ended then (⟨layout.fill (shorten text), [], true, false⟩, [])
          else emit (layout.fill (shorten text)) [] behind (words.drop 1)
        else if directive = 'c' then
          emit (layout.fill [word.toList.headD '\x00']) [] behind (words.drop 1)
        else if "dioxXu".toList.contains directive then
          let (n, warnings) := integerOf word
          emit (layout.integer directive n) warnings behind (words.drop 1)
        else if directive = 'f' || directive = 'F' then
          let (x, warnings) := floatOf word
          emit (layout.fixed x) warnings behind (words.drop 1)
        else
          let written := (c :: rest).take (rest.length - behind.length + 1)
          (failure (String.ofList written ++ ": invalid directive"), words)

/-- Fills a format as often as there are words left for it. -/
def printf (format : List Char) : Nat → List String → Output
  | 0, _ => ⟨[], [], false, false⟩
  | fuel + 1, words =>
    let (output, left) := fill (format.length + 1) format words
    if output.ended || left.isEmpty || left.length = words.length then output
    else (printf format fuel left).after output.text output.warnings

end Branchwork.Script.Format
