import Branchwork.Number.Literal
import Branchwork.Text.Hex
import Branchwork.Text.Printable

/-!
# Parameters of action tags

A tag such as `[@click=open(1, 'a')]` binds an action to a text. Its parameters are a name with a
literal in parentheses behind it, or a literal alone. The console does nothing with an action, but
refuses parameters that have not the form of a literal, and says why: `Action.problem?`.
-/

namespace Branchwork.Console.Action

/-- The smallest meaningful parts of parameters. -/
inductive Lexeme where
  | value
  | word
  | text (isBytes : Bool)
  | opening (c : Char)
  | closing (c : Char)
  | comma
  | colon
  | dot
  | assign
  | sign
  | negation
  | operator
  | star
  | other
deriving DecidableEq, Repr

/-- What can be wrong with parameters. -/
inductive Problem where
  | unfinishedText (long : Bool) (line : Nat)
  | unmatched (closing : Char)
  | mismatched (closing opening : Char)
  | neverClosed (opening : Char)
  | leadingZeros
  | badNumber
  | badCharacter (c : Char)
  | badContinuation
  | mixedTexts
  | missingComma
  | missingColon
  | missingValue
  | assignment
  | form
deriving DecidableEq, Repr

/-- A problem in words. -/
def Problem.message : Problem → String
  | .unfinishedText long line =>
    let kind := if long then "triple-quoted string" else "string"
    s!"unterminated {kind} literal (detected at line {line})"
  | .unmatched closing => s!"unmatched '{closing}'"
  | .mismatched closing opening =>
    s!"closing parenthesis '{closing}' does not match opening parenthesis '{opening}'"
  | .neverClosed opening => s!"'{opening}' was never closed"
  | .leadingZeros => "leading zeros in decimal integer literals are not permitted; " ++
      "use an 0o prefix for octal integers"
  | .badNumber => "invalid decimal literal"
  | .badCharacter c =>
    let code := (String.ofList (Text.hexDigits 4 c.toNat)).toUpper
    if Text.isPrintable c then s!"invalid character '{c}' (U+{code})"
    else s!"invalid non-printable character U+{code}"
  | .badContinuation => "unexpected character after line continuation character"
  | .mixedTexts => "cannot mix bytes and nonbytes literals"
  | .missingComma => "invalid syntax. Perhaps you forgot a comma?"
  | .missingColon => "':' expected after dictionary key"
  | .missingValue => "expression expected after dictionary key and ':'"
  | .assignment => "invalid syntax. Maybe you meant '==' or ':=' instead of '='?"
  | .form => "invalid syntax"

/-! ## Lexemes -/

/-- A character of a word. -/
def isWordChar (c : Char) : Bool := c.isAlphanum || c = '_' || 0x80 ≤ c.toNat

/-- The words that stand between two operands. -/
def joiningWords : List String := ["and", "or", "in", "is"]

/-- The words that stand in no literal. -/
def foreignWords : List String :=
  ["if", "else", "for", "lambda", "def", "class", "return", "while", "with", "as", "from",
    "import", "try", "except", "finally", "raise", "yield", "global", "nonlocal", "del", "pass",
    "break", "continue", "assert", "elif", "async", "await"]

/-- The lexeme of a word. -/
def wordLexeme (word : String) : Lexeme :=
  if ["True", "False", "None"].contains word then .value
  else if word = "not" then .negation
  else if joiningWords.contains word then .operator
  else if foreignWords.contains word then .other
  else .word

/-- Operators of two characters. -/
def longOperators : List (Char × Char) :=
  [('/', '/'), ('<', '<'), ('>', '>'), ('=', '='), ('!', '='), ('<', '='), ('>', '=')]

/-- The lexeme of a single character. -/
def markLexeme? (c : Char) : Option Lexeme :=
  if c = ',' then some .comma
  else if c = ':' then some .colon
  else if c = '.' then some .dot
  else if c = '=' then some .assign
  else if c = '+' || c = '-' || c = '~' then some .sign
  else if c = '*' then some .star
  else if "/%@&|^<>".contains c then some .operator
  else if ";!?$`".contains c then some .other
  else none

/-- Whether the text of a number is one. -/
def checkNumber (number : List Char) : Except Problem Unit :=
  let body := if number.getLast?.any (fun c => c = 'j' || c = 'J') then number.dropLast else number
  let digits := body.filter (· ≠ '_')
  let based := fun (letter : Char) (base : Nat) =>
    digits.take 2 = ['0', letter] && 2 < digits.length &&
      (digits.drop 2).all fun c => (Literal.digitBelow? base c).isSome
  if body.length = number.length && digits.all Char.isDigit && digits.head? = some '0' &&
      digits.any (· ≠ '0') then .error .leadingZeros
  else if (Literal.float? body).isSome || based 'x' 16 || based 'o' 8 || based 'b' 2 then .ok ()
  else .error .badNumber

/-- Splits a number off a text; a sign may follow the letter of an exponent. -/
def takeNumber : List Char → List Char × List Char
  | e :: sign :: rest =>
    if (e = 'e' || e = 'E') && (sign = '+' || sign = '-') && rest.head?.any Char.isDigit then
      let (more, rest) := takeNumber rest
      (e :: sign :: more, rest)
    else if isWordChar e || e = '.' then
      let (more, rest) := takeNumber (sign :: rest)
      (e :: more, rest)
    else ([], e :: sign :: rest)
  | [c] => if isWordChar c || c = '.' then ([c], []) else ([], [c])
  | [] => ([], [])

/-- The rest of a text behind a quoted part, with the line it ends in. -/
def afterQuoted (quote : Char) (long : Bool) : (line : Nat) → List Char → Except Problem (List Char)
  | line, [] => .error (.unfinishedText long line)
  | line, '\\' :: c :: rest => afterQuoted quote long (if c = '\n' then line + 1 else line) rest
  | line, c :: rest =>
    if c = '\n' && !long then .error (.unfinishedText long line)
    else if c = quote && !long then .ok rest
    else if c = quote && rest.take 2 = [quote, quote] then .ok (rest.drop 2)
    else afterQuoted quote long (if c = '\n' then line + 1 else line) rest

/-- Whether letters may stand in front of a quoted text. -/
def isQuotedMark (word : List Char) : Bool :=
  ["", "r", "b", "u", "f", "br", "rb", "fr", "rf"].contains
    (String.ofList (word.map Char.toLower))

/-- The lexemes of a text, with the brackets that stay open, the last one first. The fuel is the
length of the text. -/
def lexemes : (fuel : Nat) → (line : Nat) → (opened : List Char) → List Char →
    Except Problem (List Lexeme × List Char)
  | 0, _, opened, _ => .ok ([], opened)
  | _, _, opened, [] => .ok ([], opened)
  | fuel + 1, line, opened, c :: rest =>
    let word := (c :: rest).takeWhile isWordChar
    let behind := (c :: rest).drop word.length
    let followed := fun (l : Lexeme) (opened rest : List Char) =>
      (lexemes fuel line opened rest).map fun (more, opened) => (l :: more, opened)
    if c = ' ' || c = '\t' || c = '\x0c' then lexemes fuel line opened rest
    else if c = '\n' then lexemes fuel (line + 1) opened rest
    else if c = '#' then lexemes fuel line opened (rest.dropWhile (· ≠ '\n'))
    else if behind.head?.any (fun q => q = '\'' || q = '"') && isQuotedMark word then
      let quote := (behind.head?).getD '"'
      let long := behind.take 3 = [quote, quote, quote]
      (afterQuoted quote long line (behind.drop (if long then 3 else 1))).bind
        (followed (.text (word.any fun c => c = 'b' || c = 'B')) opened)
    else if c.isDigit || (c = '.' && rest.head?.any Char.isDigit) then do
      let (number, rest) := takeNumber (c :: rest)
      checkNumber number
      followed .value opened rest
    else if !word.isEmpty then followed (wordLexeme (String.ofList word)) opened behind
    else if c = '(' || c = '{' then followed (.opening c) (c :: opened) rest
    else if c = ')' || c = '}' then
      match opened with
      | [] => .error (.unmatched c)
      | o :: outer =>
        if (o = '(') = (c = ')') then followed (.closing c) outer rest
        else .error (.mismatched c o)
    else if c = '.' && rest.take 2 = ['.', '.'] then followed .value opened (rest.drop 2)
    else if c = '*' && rest.head? = some '*' then followed .star opened (rest.drop 1)
    else if (rest.head?).any fun d => longOperators.contains (c, d) then
      followed .operator opened (rest.drop 1)
    else if c = '\\' then .error .badContinuation
    else
      match markLexeme? c with
      | some l => followed l opened rest
      | none => .error (.badCharacter c)

/-! ## The form of a literal -/

/-- Why lexemes do not go on to form a literal. -/
inductive Stuck where
  | ended
  | broken (problem : Problem)

/-- A lexeme that can start an operand. -/
def startsOperand : Lexeme → Bool
  | .value | .word | .text _ | .opening _ => true
  | _ => false

/-- Takes texts that stand side by side. -/
def takeTexts (isBytes : Bool) : List Lexeme → Except Stuck (List Lexeme)
  | .text b :: rest =>
    if b = isBytes then takeTexts isBytes rest else .error (.broken .mixedTexts)
  | rest => .ok rest

/-- What the place behind an operand in brackets says: whether the brackets are closed, and the
lexemes that follow. -/
def afterItem (close : Char) : List Lexeme → Except Stuck (Bool × List Lexeme)
  | [] => .error .ended
  | .comma :: .closing c :: rest =>
    if c = close then .ok (true, rest) else .error (.broken .form)
  | .comma :: rest => .ok (false, rest)
  | .closing c :: rest => if c = close then .ok (true, rest) else .error (.broken .form)
  | l :: _ => .error (.broken (if startsOperand l then .missingComma else .form))

mutual

/-- Takes an operand. -/
def operand : (fuel : Nat) → List Lexeme → Except Stuck (List Lexeme)
  | 0, _ => .error (.broken .form)
  | _, [] => .error .ended
  | fuel + 1, .sign :: rest => operand fuel rest
  | fuel + 1, .negation :: rest => operand fuel rest
  | fuel + 1, .value :: rest => trailers fuel rest
  | fuel + 1, .word :: rest => trailers fuel rest
  | fuel + 1, .text b :: rest => (takeTexts b rest).bind (trailers fuel)
  | fuel + 1, .opening c :: rest =>
    (if c = '(' then group fuel rest else braces fuel rest).bind (trailers fuel)
  | _ + 1, _ => .error (.broken .form)

/-- Takes what may stand behind an operand: calls and names behind dots. -/
def trailers : (fuel : Nat) → List Lexeme → Except Stuck (List Lexeme)
  | fuel + 1, .opening '(' :: rest => (group fuel rest).bind (trailers fuel)
  | fuel + 1, .dot :: .word :: rest => trailers fuel rest
  | _, rest => .ok rest

/-- Takes operands with operators between them. -/
def chain : (fuel : Nat) → List Lexeme → Except Stuck (List Lexeme)
  | 0, _ => .error (.broken .form)
  | fuel + 1, l => (operand fuel l).bind (chainRest fuel)

/-- Takes the operators and operands behind an operand. -/
def chainRest : (fuel : Nat) → List Lexeme → Except Stuck (List Lexeme)
  | fuel + 1, .operator :: rest => (operand fuel rest).bind (chainRest fuel)
  | fuel + 1, .star :: rest => (operand fuel rest).bind (chainRest fuel)
  | fuel + 1, .sign :: rest => (operand fuel rest).bind (chainRest fuel)
  | fuel + 1, .negation :: rest => (operand fuel rest).bind (chainRest fuel)
  | _, rest => .ok rest

/-- Goes on behind an item in brackets. A second operand where a comma is missing is read on, for
it may lack a closing bracket itself. -/
def afterItemOr (close : Char) : (fuel : Nat) → (onward : List Lexeme) →
    Except Stuck (Bool × List Lexeme)
  | 0, _ => .error (.broken .form)
  | fuel + 1, l =>
    match afterItem close l with
    | .error (.broken .missingComma) =>
      match chain fuel l with
      | .error stuck => .error stuck
      | .ok [] => .error .ended
      | .ok _ => .error (.broken .missingComma)
    | result => result

/-- Takes what stands in parentheses, behind the opening one. -/
def group : (fuel : Nat) → List Lexeme → Except Stuck (List Lexeme)
  | 0, _ => .error (.broken .form)
  | _ + 1, .closing ')' :: rest => .ok rest
  | fuel + 1, .star :: rest => group fuel rest
  | _ + 1, .word :: .assign :: _ => .error (.broken .assignment)
  | fuel + 1, l =>
    match (chain fuel l).bind (afterItemOr ')' fuel) with
    | .error stuck => .error stuck
    | .ok (true, rest) => .ok rest
    | .ok (false, rest) => group fuel rest

/-- Takes what stands in braces, behind the opening one. -/
def braces : (fuel : Nat) → List Lexeme → Except Stuck (List Lexeme)
  | 0, _ => .error (.broken .form)
  | _ + 1, .closing '}' :: rest => .ok rest
  | fuel + 1, .star :: rest => braces fuel rest
  | fuel + 1, l =>
    match chain fuel l with
    | .error stuck => .error stuck
    | .ok (.colon :: rest) => entry fuel rest
    | .ok rest =>
      match afterItemOr '}' fuel rest with
      | .error stuck => .error stuck
      | .ok (true, rest) => .ok rest
      | .ok (false, rest) => braces fuel rest

/-- Takes the value of an entry in braces, and the entries behind it. -/
def entry : (fuel : Nat) → List Lexeme → Except Stuck (List Lexeme)
  | 0, _ => .error (.broken .form)
  | _ + 1, .closing '}' :: _ => .error (.broken .missingValue)
  | _ + 1, .comma :: _ => .error (.broken .missingValue)
  | fuel + 1, l =>
    match (chain fuel l).bind (afterItemOr '}' fuel) with
    | .error stuck => .error stuck
    | .ok (true, rest) => .ok rest
    | .ok (false, rest) =>
      match chain fuel rest with
      | .error stuck => .error stuck
      | .ok (.colon :: rest) => entry fuel rest
      | .ok [] => .error .ended
      | .ok _ => .error (.broken .missingColon)

end

/-- Takes a whole literal: operands with commas between them. -/
def whole : (fuel : Nat) → List Lexeme → Except Stuck Unit
  | 0, _ => .error (.broken .form)
  | fuel + 1, l =>
    match chain fuel l with
    | .error stuck => .error stuck
    | .ok [] => .ok ()
    | .ok [.comma] => .ok ()
    | .ok (.comma :: rest) => whole fuel rest
    | .ok (next :: rest) =>
      if startsOperand next then
        (chain fuel (next :: rest)).bind fun _ => .error (.broken .form)
      else .error (.broken .form)

/-- Checks that a text is a literal. -/
def checkLiteral (text : List Char) : Except Problem Unit := do
  let (ls, opened) ← lexemes text.length 1 [] text
  match whole (4 * ls.length + 4) ls with
  | .ok () => .ok ()
  | .error (.broken problem) => .error problem
  | .error .ended => .error ((opened.head?.map .neverClosed).getD .form)

/-- The literal in parameters: what stands in the parentheses behind a name. A name alone has an
empty pair of parentheses. -/
def literalOf (parameters : List Char) : List Char :=
  let behind := parameters.dropWhile fun c => isWordChar c || c = '.'
  if behind.isEmpty then ['(', ')']
  else if behind.head? = some '(' && behind.getLast? = some ')' && !behind.contains '\n' then behind
  else parameters

end Branchwork.Console.Action
