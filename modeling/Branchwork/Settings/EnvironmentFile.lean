import Branchwork.Environment
import Branchwork.Text.Blank

/-!
# Environment files

A file of definitions `name=value`, one a line, each perhaps behind the word `export`. A value is
plain, up to a comment or the end of the line, or it stands in single or double quotes and may then
hold line breaks and escapes. In a value `${name}` and `${name:-default}` stand for the value of
another variable. A line that is no definition is passed over. A byte order mark in front of the
first line does not count.
-/

namespace Branchwork.EnvironmentFile

/-- A definition; without a value it defines nothing. -/
structure Definition where
  name : String
  value : Option String
deriving DecidableEq, Repr

/-- A blank inside a line. -/
def isInnerBlank (c : Char) : Bool := Text.isBlank c && c ≠ '\r' && c ≠ '\n'

/-- A character that ends a line. -/
def isLineEnd (c : Char) : Bool := c = '\r' || c = '\n'

/-- The text behind the word `export` and its blanks. -/
def skipExport (s : List Char) : List Char :=
  if "export".toList.isPrefixOf s then
    let rest := s.drop 6
    let behind := rest.dropWhile isInnerBlank
    if behind.length < rest.length then behind else s
  else s

/-- A name with the text behind it; at a comment there is no name. -/
def takeName (s : List Char) : Option (Option (List Char) × List Char) :=
  match s with
  | '#' :: _ => some (none, s)
  | '\'' :: rest =>
    let name := rest.takeWhile (· ≠ '\'')
    match rest.dropWhile (· ≠ '\'') with
    | _ :: behind => if name.isEmpty then none else some (some name, behind)
    | [] => none
  | _ =>
    let isName (c : Char) := c ≠ '=' && c ≠ '#' && !Text.isBlank c
    let name := s.takeWhile isName
    if name.isEmpty then none else some (some name, s.dropWhile isName)

/-- The text up to the quote that closes it, with the text behind it. A backslash and the character
behind it belong together, so that neither closes the text. -/
def toQuote? (quote : Char) : List Char → Option (List Char × List Char)
  | [] => none
  | '\\' :: c :: rest =>
    (toQuote? quote rest).map fun (read, behind) => ('\\' :: c :: read, behind)
  | c :: rest =>
    if c = quote then some ([], rest)
    else (toQuote? quote rest).map fun (read, behind) => (c :: read, behind)

/-- Replaces the escapes of a text; `letters` says which ones there are. -/
def unescape (letters : List (Char × Char)) : List Char → List Char
  | '\\' :: c :: rest =>
    match letters.lookup c with
    | some meant => meant :: unescape letters rest
    | none => '\\' :: unescape letters (c :: rest)
  | c :: rest => c :: unescape letters rest
  | [] => []

/-- The escapes inside single quotes. -/
def singleEscapes : List (Char × Char) := [('\\', '\\'), ('\'', '\'')]

/-- The escapes inside double quotes. -/
def doubleEscapes : List (Char × Char) :=
  [('\\', '\\'), ('\'', '\''), ('"', '"'), ('a', '\x07'), ('b', '\x08'), ('f', '\x0c'),
    ('n', '\n'), ('r', '\r'), ('t', '\t'), ('v', '\x0b')]

/-- A plain value without the comment behind it: a comment starts at a `#` behind a blank. -/
def dropComment (afterBlank : Bool) : List Char → List Char
  | [] => []
  | c :: rest =>
    if c = '#' && afterBlank then [] else c :: dropComment (Text.isBlank c) rest

/-- A value with the text behind it; `afterBlank` says whether a blank stands in front of it. -/
def takeValue (afterBlank : Bool) (s : List Char) : Option (List Char × List Char) :=
  match s with
  | '\'' :: rest =>
    (toQuote? '\'' rest).map fun (read, behind) => (unescape singleEscapes read, behind)
  | '"' :: rest =>
    (toQuote? '"' rest).map fun (read, behind) => (unescape doubleEscapes read, behind)
  | _ =>
    let line := s.takeWhile (!isLineEnd ·)
    some (Text.trimRight (dropComment afterBlank line), s.dropWhile (!isLineEnd ·))

/-- The text behind a comment and the end of the line, if nothing else stands there. -/
def takeLineRest (s : List Char) : Option (List Char) :=
  let rest := s.dropWhile isInnerBlank
  let rest := if rest.head? = some '#' then rest.dropWhile (!isLineEnd ·) else rest
  match rest with
  | [] => some []
  | '\r' :: '\n' :: behind => some behind
  | c :: behind => if isLineEnd c then some behind else none

/-- The text behind the end of the line. -/
def skipLine (s : List Char) : List Char := (s.dropWhile (!isLineEnd ·)).drop 1

/-- The value behind a name, if there is one: none at all where it cannot be read. -/
def valueBehind (s : List Char) : Option (Option (List Char) × List Char) :=
  match s with
  | '=' :: rest =>
    (takeValue (rest.head?.any isInnerBlank) (rest.dropWhile isInnerBlank)).map
      fun (v, behind) => (some v, behind)
  | _ => some (none, s)

/-- The definition at the front of a text, with the text behind it. A line that cannot be read is
passed over from the place where reading stopped. -/
def takeDefinition (s : List Char) : Option Definition × List Char :=
  let s := skipExport s
  match takeName s with
  | none => (none, skipLine s)
  | some (name, rest) =>
    let rest := rest.dropWhile isInnerBlank
    match valueBehind rest with
    | none => (none, skipLine rest)
    | some (value, behind) =>
      match takeLineRest behind with
      | none => (none, skipLine behind)
      | some behind =>
        (name.map fun name => ⟨String.ofList name, value.map String.ofList⟩, behind)

/-- The definitions of a text. Each round takes at least one character. -/
def definitionsFrom : Nat → List Char → List Definition
  | 0, _ => []
  | fuel + 1, s =>
    let s := s.dropWhile Text.isBlank
    if s.isEmpty then []
    else
      let (found, rest) := takeDefinition s
      let more := definitionsFrom fuel rest
      found.elim more (· :: more)

/-- The definitions of a file, in order. -/
def definitions (text : String) : List Definition :=
  let chars := text.toList
  definitionsFrom (chars.length + 1) (if chars.head? = some '\ufeff' then chars.drop 1 else chars)

/-! ## Values that mention other variables -/

/-- A mention of a variable behind its opening brace: the name, the default, and the text behind. -/
def takeMention (s : List Char) : Option (List Char × List Char × List Char) :=
  let name := s.takeWhile fun c => c ≠ '}' && c ≠ ':'
  match s.dropWhile fun c => c ≠ '}' && c ≠ ':' with
  | '}' :: rest => some (name, [], rest)
  | ':' :: '-' :: rest =>
    match rest.dropWhile (· ≠ '}') with
    | _ :: behind => some (name, rest.takeWhile (· ≠ '}'), behind)
    | [] => none
  | _ => none

/-- Replaces the mentions of variables. The next `skip` characters belong to a mention. -/
def fillMentions (value? : String → Option String) : (skip : Nat) → List Char → List Char
  | _, [] => []
  | skip + 1, _ :: rest => fillMentions value? skip rest
  | 0, c :: rest =>
    match c, rest with
    | '$', '{' :: body =>
      match takeMention body with
      | some (name, default, behind) =>
        ((value? (String.ofList name)).getD (String.ofList default)).toList ++
          fillMentions value? (body.length - behind.length + 1) rest
      | none => c :: fillMentions value? 0 rest
    | _, _ => c :: fillMentions value? 0 rest

/-- The values that definitions give, in order. A mention stands for the variable of the
environment, or else for an earlier definition. -/
def resolve (env : Environment) (found : List (String × Option String)) :
    List Definition → List (String × Option String)
  | [] => found
  | d :: rest =>
    let value? (name : String) : Option String :=
      (env.get? name).orElse fun _ =>
        match found.lookup name with
        | some value => some (value.getD "")
        | none => none
    let value := d.value.map fun v => String.ofList (fillMentions value? 0 v.toList)
    let others := found.filter (·.1 ≠ d.name)
    resolve env
      (if (found.lookup d.name).isSome then
        found.map fun (name, old) => (name, if name = d.name then value else old)
      else others ++ [(d.name, value)]) rest

/-- Why a variable cannot be defined. -/
inductive Problem where
  | nullByte
  | badName
deriving DecidableEq, Repr

/-- A reason in words. -/
def Problem.message : Problem → String
  | .nullByte => "embedded null byte"
  | .badName => "illegal environment variable name"

/-- Defines a variable; one that is defined stays as it is. No name or value may hold a null
character, and no name an equals sign. -/
def define (env : Environment) (name value : String) : Except Problem Environment :=
  if (env.get? name).isSome then .ok env
  else if name.contains '\x00' || value.contains '\x00' then .error .nullByte
  else if name.contains '=' then .error .badName
  else .ok (env.put name value)

/-- The environment with the definitions of a file. -/
def load (env : Environment) (text : String) : Except Problem Environment :=
  (resolve env [] (definitions text)).foldlM (fun env (name, value) =>
    value.elim (.ok env) (define env name)) env

/-- The variable that turns the reading of environment files off. -/
def disablingVariable : String := "PYTHON_DOTENV_DISABLED"

/-- The words that turn the reading off, in any case. -/
def disablingWords : List String := ["1", "true", "t", "yes", "y"]

/-- Whether an environment turns the reading of environment files off. -/
def isDisabled (env : Environment) : Bool :=
  (env.get? disablingVariable).any fun value => disablingWords.contains value.toLower

end Branchwork.EnvironmentFile
