import Branchwork.Script.Pattern

/-!
# Regular expressions of utilities

A regular expression is read from a text in which either bare marks are operators (`extended`) or
those behind a backslash. It is matched against a line by following it to all texts that it may
leave over; of all matches at the first place where there is one, the longest counts.
-/

namespace Branchwork.Script

/-- A regular expression: one character, the ends of a line, one part after another, one of two,
repetitions, and parts that are remembered by their number. -/
inductive Regex where
  | nothing
  | one (item : FileSystem.GlobItem)
  | lineStart
  | lineEnd
  | after (first second : Regex)
  | either (first second : Regex)
  | repeated (least : Nat) (most : Option Nat) (body : Regex)
  | group (number : Nat) (body : Regex)
deriving Repr

namespace Regex

/-! ## Matching -/

/-- Where a match stands: what is left of the line, and the groups so far. -/
structure Place where
  rest : List Char
  groups : List (Nat × List Char)

/-- Whether an item is a character. -/
def fits (item : FileSystem.GlobItem) (c : Char) : Bool :=
  match item with
  | .any => true
  | .char d => c = d
  | .set negated ranges => ranges.any (fun (first, last) => first ≤ c && c ≤ last) != negated
  | .run => false

/-- The places that up to `fuel` repetitions of a step lead to, the most repetitions first. A
repetition has to move on, once the least count is reached. -/
def iterate (step : Place → List Place) (least : Nat) (most : Option Nat) :
    (fuel : Nat) → Place → List Place
  | 0, place => if least = 0 then [place] else []
  | fuel + 1, place =>
    let further :=
      if most = some 0 then []
      else
        (step place).flatMap fun next =>
          if next.rest.length < place.rest.length || 0 < least then
            iterate step (least - 1) (most.map (· - 1)) fuel next
          else []
    further ++ if least = 0 then [place] else []

/-- The places that a regular expression leads to from a place in a line of a given length. -/
def ends (length : Nat) : Regex → Place → List Place
  | .nothing, place => [place]
  | .one item, place =>
    match place.rest with
    | c :: rest => if fits item c then [{ place with rest }] else []
    | [] => []
  | .lineStart, place => if place.rest.length = length then [place] else []
  | .lineEnd, place => if place.rest.isEmpty then [place] else []
  | .after first second, place => (first.ends length place).flatMap (second.ends length)
  | .either first second, place => first.ends length place ++ second.ends length place
  | .repeated least most body, place =>
    iterate (body.ends length) least most (least + place.rest.length) place
  | .group number body, place =>
    (body.ends length place).map fun next =>
      let taken := place.rest.take (place.rest.length - next.rest.length)
      { next with groups := (number, taken) :: next.groups }

/-- A match in a line: what stands before it, what it takes, and what is behind it. -/
structure Match where
  before : List Char
  taken : List Char
  behind : List Char
  groups : List (Nat × List Char)

/-- The longest match at a place of a line, if there is one. -/
def matchHere? (r : Regex) (length : Nat) (before rest : List Char) : Option Match :=
  let found := r.ends length ⟨rest, []⟩
  let longest := found.foldl (fun best place =>
    match best with
    | some (other : Place) => if place.rest.length < other.rest.length then some place else best
    | none => some place) none
  longest.map fun place =>
    ⟨before, rest.take (rest.length - place.rest.length), place.rest, place.groups⟩

/-- The first match in what is left of a line behind `before`, which is given last character
first. -/
def matchFrom? (r : Regex) (length : Nat) (before : List Char) : List Char → Option Match
  | [] => r.matchHere? length before.reverse []
  | c :: rest =>
    (r.matchHere? length before.reverse (c :: rest)).or (matchFrom? r length (c :: before) rest)

/-- The first match in a line. -/
def match? (r : Regex) (line : List Char) : Option Match := r.matchFrom? line.length [] line

/-! ## Reading -/

/-- A token of a regular expression. -/
inductive Token where
  | item (item : FileSystem.GlobItem)
  | start
  | stop
  | times (least : Nat) (most : Option Nat)
  | opening
  | closing
  | bar
deriving Repr

/-- The bounds of a repetition up to a mark, with what follows. -/
def bounds? (mark : List Char) (s : List Char) : Option ((Nat × Option Nat) × List Char) :=
  let number (digits : List Char) := digits.foldl (fun n c => 10 * n + (c.toNat - 48)) 0
  let least := s.takeWhile Char.isDigit
  let rest := s.drop least.length
  let found :=
    match rest with
    | ',' :: rest =>
      let most := rest.takeWhile Char.isDigit
      ((number least, if most.isEmpty then none else some (number most)), rest.drop most.length)
    | rest => ((number least, some (number least)), rest)
  if mark.isPrefixOf found.2 then some (found.1, found.2.drop mark.length) else none

/-- What a letter behind a backslash stands for. -/
def escaped (c : Char) : FileSystem.GlobItem :=
  let word := [('a', 'z'), ('A', 'Z'), ('0', '9'), ('_', '_')]
  let blank := [('\t', '\r'), (' ', ' ')]
  match c with
  | 'n' => .char '\n'
  | 't' => .char '\t'
  | 'w' => .set false word
  | 'W' => .set true word
  | 's' => .set false blank
  | 'S' => .set true blank
  | c => .char c

/-- Whether an expression may begin behind a token, so that a repetition there stands for itself. -/
def isBeginning : Option Token → Bool
  | none | some .opening | some .bar | some .start => true
  | _ => false

/-- The tokens of a regular expression; `last` is the one before them. -/
def tokens? (extended : Bool) (last : Option Token) : Nat → List Char → Option (List Token)
  | 0, _ | _, [] => some []
  | fuel + 1, c :: rest =>
    let follow (token : Token) (rest : List Char) : Option (List Token) :=
      (tokens? extended (some token) fuel rest).map (token :: ·)
    -- a mark that is an operator if it is written as this kind of expression asks
    let operator? (mark : Char) (closing : List Char) (rest : List Char) :
        Option (Token × List Char) :=
      match mark with
      | '(' => some (.opening, rest)
      | ')' => some (.closing, rest)
      | '|' => some (.bar, rest)
      | '+' => if isBeginning last then none else some (.times 1 none, rest)
      | '?' => if isBeginning last then none else some (.times 0 (some 1), rest)
      | '{' => (bounds? closing rest).map fun ((least, most), rest) => (.times least most, rest)
      | _ => none
    if c = '\\' then
      match rest with
      | [] => none
      | d :: rest =>
        match if extended then none else operator? d ['\\', '}'] rest with
        | some (token, rest) => follow token rest
        | none => follow (.item (escaped d)) rest
    else if c = '.' then follow (.item .any) rest
    else if c = '[' then
      (Pattern.set? '^' (rest.map fun c => (c, false))).bind fun (set, behind) =>
        follow (.item set) (behind.map (·.1))
    else if c = '*' && !isBeginning last then follow (.times 0 none) rest
    else if c = '^' && (extended || isBeginning last) then follow .start rest
    else if c = '$' && (extended || rest.isEmpty || rest.take 2 = ['\\', ')'] ||
        rest.take 2 = ['\\', '|']) then follow .stop rest
    else
      match if extended then operator? c ['}'] rest else none with
      | some (token, rest) => follow token rest
      | none => follow (.item (.char c)) rest

mutual

/-- Reads alternatives; `number` is that of the last group. Gives what is left and the last number
then. -/
def alternatives? (number : Nat) : Nat → List Token → Option (Regex × List Token × Nat)
  | 0, _ => none
  | fuel + 1, tokens => do
    let (first, rest, number) ← sequence? number fuel tokens
    match rest with
    | .bar :: rest =>
      let (second, rest, number) ← alternatives? number fuel rest
      return (.either first second, rest, number)
    | rest => return (first, rest, number)

/-- Reads parts that stand one after another. -/
def sequence? (number : Nat) : Nat → List Token → Option (Regex × List Token × Nat)
  | 0, _ => none
  | fuel + 1, tokens => do
    let atom? : Option (Regex × List Token × Nat) ←
      match tokens with
      | .item item :: rest => pure (some (.one item, rest, number))
      | .start :: rest => pure (some (.lineStart, rest, number))
      | .stop :: rest => pure (some (.lineEnd, rest, number))
      | .opening :: rest =>
        match ← alternatives? (number + 1) fuel rest with
        | (body, .closing :: rest, last) => pure (some (.group (number + 1) body, rest, last))
        | _ => none
      | _ => pure none
    match atom? with
    | none => return (.nothing, tokens, number)
    | some (atom, rest, number) =>
      let (atom, rest) := quantified atom rest
      let (more, rest, number) ← sequence? number fuel rest
      return (.after atom more, rest, number)
where
  /-- A part with the repetitions behind it. -/
  quantified (atom : Regex) : List Token → Regex × List Token
    | .times least most :: rest => quantified (.repeated least most atom) rest
    | rest => (atom, rest)

end

/-- Reads a regular expression. -/
def ofText? (extended : Bool) (text : List Char) : Option Regex := do
  let tokens ← tokens? extended none (text.length + 1) text
  match ← alternatives? 0 (4 * tokens.length + 8) tokens with
  | (r, [], _) => return r
  | _ => none

end Regex

end Branchwork.Script
