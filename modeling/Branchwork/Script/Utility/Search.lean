import Branchwork.Script.Regex
import Branchwork.Script.Utility.Basic

/-!
# Utilities that search lines

Programs that look for regular expressions in lines: one writes the lines that match, the other one
changes lines as its script says.
-/

namespace Branchwork.Script.Utility

/-! ## Lines that match -/

/-- A text in small letters. -/
def small (s : List Char) : List Char := s.map Char.toLower

/-- The matches in what is left of a line that hold characters. -/
def matchesIn (r : Regex) (length : Nat) (before : List Char) :
    Nat → List Char → List (List Char)
  | 0, _ => []
  | fuel + 1, rest =>
    match r.matchFrom? length before rest with
    | none => []
    | some found =>
      let taken := if found.taken.isEmpty then found.behind.take 1 else found.taken
      let more := if taken.isEmpty then []
        else matchesIn r length ((found.before ++ taken).reverse) fuel
          (found.behind.drop (taken.length - found.taken.length))
      if found.taken.isEmpty then more else found.taken :: more

/-- Writes the lines that hold a match. -/
def grep (words : List String) : Sh Int := do
  match options "vncqloiFEshHx" "e" (words.length + 1) words with
  | .error message =>
    Sh.report s!"grep: {message}"
    Sh.report "Usage: grep [OPTION]... PATTERNS [FILE]...\nTry 'grep --help' for more information."
    return 2
  | .ok o =>
    let asked := o.given.filterMap fun (c, value) => if c = 'e' then some value else none
    let (patterns, files) := if asked.isEmpty then (o.words.take 1, o.words.drop 1)
      else (asked, o.words)
    if patterns.isEmpty then
      Sh.report
        "Usage: grep [OPTION]... PATTERNS [FILE]...\nTry 'grep --help' for more information."
      return 2
    let cased (s : List Char) := if o.has 'i' then small s else s
    let read (pattern : String) : Option Regex :=
      let chars := cased pattern.toList
      if o.has 'F' then
        some (chars.foldr (fun c r => .after (.one (.char c)) r) .nothing)
      else Regex.ofText? (o.has 'E') chars
    let whole (r : Regex) : Regex :=
      if o.has 'x' then .after .lineStart (.after r .lineEnd) else r
    match (patterns.flatMap (·.splitOn "\n")).mapM read with
    | none =>
      Sh.report "grep: Invalid regular expression"
      return 2
    | some found =>
      let r := whole (found.foldr .either (.repeated 1 (some 0) .nothing))
      let files := if files.isEmpty then ["-"] else files
      let named := (1 < files.length || o.has 'H') && !o.has 'h'
      let results ← files.mapM fun file => do
        match ← contents file with
        | .error reason =>
          unless o.has 's' do Sh.report s!"grep: {file}: {reason}"
          return (false, true)
        | .ok text =>
          let all := ((lines text).map bare).zipIdx
          let hits := all.filter fun (line, _) => (r.match? (cased line)).isSome != o.has 'v'
          let shownName := if file = "-" then "(standard input)" else file
          let front (i : Nat) := (if named then shownName ++ ":" else "") ++
            (if o.has 'n' then toString (i + 1) ++ ":" else "")
          let shown : List String :=
            if o.has 'q' then []
            else if o.has 'l' then if hits.isEmpty then [] else [shownName]
            else if o.has 'c' then
              [(if named then shownName ++ ":" else "") ++ toString hits.length]
            else
              hits.flatMap fun (line, i) =>
                let parts :=
                  if o.has 'o' then matchesIn r line.length [] (line.length + 1) line else [line]
                parts.map fun part => front i ++ String.ofList part
          let _ ← emit "grep" (String.join (shown.map (· ++ "\n"))).toList
          return (!hits.isEmpty, false)
      let isFound := results.any (·.1)
      return if results.any (·.2) && !(isFound && o.has 'q') then 2 else if isFound then 0 else 1

/-! ## Lines that are changed -/

/-- The place of a line: its number, the last line, or those that hold a match. -/
inductive Address where
  | number (n : Nat)
  | last
  | holding (r : Regex)

/-- What is done with a line. -/
inductive Edit where
  | substitute (r : Regex) (replacement : List Char) (all : Bool) (place : Nat) (prints : Bool)
  | print
  | delete
  | quit
  | number

/-- An edit, and the lines for which it is meant, or for which it is not. -/
structure Instruction where
  first : Option Address
  last : Option Address
  negated : Bool
  edit : Edit

/-- The text up to a mark that no backslash stands in front of, and what is behind it. A backslash
in front of the mark goes. -/
def upTo? (mark : Char) : List Char → Option (List Char × List Char)
  | [] => none
  | '\\' :: c :: rest =>
    (upTo? mark rest).map fun (text, behind) =>
      (if c = mark && mark ≠ '\\' then c :: text else '\\' :: c :: text, behind)
  | c :: rest =>
    if c = mark then some ([], rest)
    else (upTo? mark rest).map fun (text, behind) => (c :: text, behind)

/-- Reads an address. -/
def address? (extended : Bool) (s : List Char) : Option (Option Address × List Char) :=
  match s with
  | '$' :: rest => some (some .last, rest)
  | '/' :: rest => do
    let (text, rest) ← upTo? '/' rest
    return (some (.holding (← Regex.ofText? extended text)), rest)
  | s =>
    let digits := s.takeWhile Char.isDigit
    if digits.isEmpty then some (none, s)
    else some (some (.number (natOf digits)), s.drop digits.length)

/-- Reads an edit. -/
def edit? (extended : Bool) : List Char → Option (Edit × List Char)
  | 'p' :: rest => some (.print, rest)
  | 'd' :: rest => some (.delete, rest)
  | 'q' :: rest => some (.quit, rest)
  | '=' :: rest => some (.number, rest)
  | 's' :: mark :: rest => do
    let (pattern, rest) ← upTo? mark rest
    let (replacement, rest) ← upTo? mark rest
    let flags := rest.takeWhile fun c => c.isDigit || "gpI".toList.contains c
    let r ← Regex.ofText? extended pattern
    let places := flags.filter Char.isDigit
    let place := if places.isEmpty then 1 else natOf places
    return (.substitute r replacement (flags.contains 'g') place (flags.contains 'p'),
      rest.drop flags.length)
  | _ => none

/-- Reads instructions. -/
def instructions? (extended : Bool) : Nat → List Char → Option (List Instruction)
  | 0, _ => none
  | fuel + 1, s => do
    let s := s.dropWhile fun c => c = ' ' || c = ';' || c = '\n' || c = '\t'
    if s.isEmpty then return []
    let (first, s) ← address? extended s
    let (last, s) ←
      match s with
      | ',' :: rest => address? extended rest
      | s => some (none, s)
    let s := s.dropWhile (· = ' ')
    let negated := s.head? = some '!'
    let (edit, s) ← edit? extended (if negated then s.drop 1 else s)
    let s := s.dropWhile (· = ' ')
    if s.head?.any fun c => c ≠ ';' && c ≠ '\n' then none
    else return ⟨first, last, negated, edit⟩ :: (← instructions? extended fuel s)

/-- A replacement for a match: a mark stands for the match, and a number behind a backslash for a
group of it. -/
def replaced (found : Regex.Match) : List Char → List Char
  | [] => []
  | '&' :: rest => found.taken ++ replaced found rest
  | '\\' :: c :: rest =>
    let meant :=
      if c.isDigit then if c = '0' then found.taken
        else (found.groups.lookup (c.toNat - 48)).getD []
      else if c = 'n' then ['\n']
      else if c = 't' then ['\t']
      else [c]
    meant ++ replaced found rest
  | c :: rest => c :: replaced found rest

/-- What is left of a line with its matches replaced, from the one with the number `place` on, and
whether there was one. -/
def substituted (r : Regex) (replacement : List Char) (all : Bool) (length : Nat) :
    (place : Nat) → (before : List Char) → Nat → List Char → List Char × Bool
  | _, _, 0, rest => (rest, false)
  | place, before, fuel + 1, rest =>
    match r.matchFrom? length before rest with
    | none => (rest, false)
    | some found =>
      let kept := found.before.drop before.length
      let isWanted := place ≤ 1
      let new := if isWanted then replaced found replacement else found.taken
      let isEmpty := found.taken.isEmpty
      let step := if isEmpty then found.behind.take 1 else []
      let behind := if isEmpty then found.behind.drop 1 else found.behind
      if isWanted && !all then (kept ++ new ++ found.behind, true)
      else if isEmpty && step.isEmpty then (kept ++ new, isWanted)
      else
        let (more, isFound) := substituted r replacement all length (place - 1)
          ((found.before ++ found.taken ++ step).reverse) fuel behind
        (kept ++ new ++ step ++ more, isWanted || isFound)

/-- Whether a line is at an address. -/
def isAt (number count : Nat) (line : List Char) : Address → Bool
  | .number n => n = number
  | .last => number = count
  | .holding r => (r.match? line).isSome

/-- Whether an instruction is meant for a line, and whether it is then between its two addresses;
`inside` tells whether it was before. -/
def isMeant (i : Instruction) (inside : Bool) (number count : Nat) (line : List Char) :
    Bool × Bool :=
  match i.first, i.last with
  | none, _ => (true, false)
  | some first, none => (isAt number count line first, false)
  | some first, some final =>
    -- a line that a number tells may be behind already
    let goesOn (isFirst : Bool) := match final with
      | .number n => number < n
      | final => isFirst || !isAt number count line final
    if inside then (true, goesOn false)
    else if isAt number count line first then (true, goesOn true)
    else (false, false)

/-- What instructions make of a line: what is written in front of it, the line, whether it goes and
whether it is the last one; and which instructions are between their addresses. -/
structure Edited where
  written : List Char
  line : List Char
  isGone : Bool
  quits : Bool
  inside : List Bool

/-- Follows instructions for a line. -/
def follow (number count : Nat) (line : List Char) :
    List (Instruction × Bool) → Edited
  | [] => ⟨[], line, false, false, []⟩
  | (i, inside) :: rest =>
    let (meant, inside) := isMeant i inside number count line
    let others := rest.map (·.2)
    let onward (written line : List Char) : Edited :=
      let more := follow number count line rest
      { more with written := written ++ more.written, inside := inside :: more.inside }
    if meant = i.negated then onward [] line
    else
      match i.edit with
      | .print => onward (line ++ ['\n']) line
      | .number => onward (toString number ++ "\n").toList line
      | .delete => ⟨[], line, true, false, inside :: others⟩
      | .quit => ⟨[], line, false, true, inside :: others⟩
      | .substitute r replacement all place prints =>
        let (new, isFound) := substituted r replacement all line.length place [] (line.length + 2)
          line
        onward (if prints && isFound then new ++ ['\n'] else []) new

/-- Follows instructions for lines. -/
def followAll (silent : Bool) (count : Nat) (instructions : List Instruction) :
    (inside : List Bool) → (number : Nat) → List (List Char) → List Char
  | _, _, [] => []
  | inside, number, line :: rest =>
    let edited := follow number count (bare line) (instructions.zip inside)
    let ending := if line.getLast? = some '\n' then ['\n'] else []
    let shown := if silent || edited.isGone then [] else edited.line ++ ending
    -- what is written last has no end if its line has none
    let written :=
      if ending.isEmpty && shown.isEmpty && edited.written.getLast? = some '\n' then
        edited.written.dropLast
      else edited.written
    let more := if edited.quits then []
      else followAll silent count instructions edited.inside (number + 1) rest
    written ++ shown ++ more

/-- Changes lines as a script says. -/
def sed (words : List String) : Sh Int :=
  withOptions "sed" "nErsu" "e" words fun o => do
    let asked := o.given.filterMap fun (c, value) => if c = 'e' then some value else none
    let (scripts, files) := if asked.isEmpty then (o.words.take 1, o.words.drop 1)
      else (asked, o.words)
    if scripts.isEmpty then
      Sh.report "Usage: sed [OPTION]... \x7bscript-only-if-no-other-script\x7d [input-file]..."
      return 1
    let script := ("\n".intercalate scripts).toList
    match instructions? (o.has 'E' || o.has 'r') (script.length + 1) script with
    | none =>
      let place := toString script.length
      Sh.report s!"sed: -e expression #1, char {place}: unknown command"
      return 1
    | some instructions =>
      let files := if files.isEmpty then ["-"] else files
      let texts ← files.mapM fun file => do
        match ← contents file with
        | .ok text => return ((0 : Int), text)
        | .error reason =>
          Sh.report s!"sed: can't read {file}: {reason}"
          return (2, [])
      let all := lines (texts.flatMap (·.2))
      let inside := instructions.map fun _ => false
      let status ← emit "sed" (followAll (o.has 'n') all.length instructions inside 1 all)
      return (texts.map (·.1)).foldl max status

end Branchwork.Script.Utility
