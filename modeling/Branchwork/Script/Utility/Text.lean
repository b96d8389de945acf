import Branchwork.Number.Literal
import Branchwork.Script.Format
import Branchwork.Script.Field
import Branchwork.Script.Utility.Basic

/-!
# Utilities for texts

Programs that write texts, or that read them and write what they make of them: whole files, first
and last lines, counts, sorted lines, parts of lines, and texts in other characters.
-/

namespace Branchwork.Script.Utility

/-! ## Whole texts -/

/-- Writes its words. Escapes are read only if that is asked for. -/
def echo (words : List String) : Sh Int := do
  let isOption (word : String) :=
    match word.toList with
    | '-' :: c :: more => (c :: more).all fun c => "neE".toList.contains c
    | _ => false
  let letters := (words.takeWhile isOption).flatMap fun word => word.toList.drop 1
  let text := " ".intercalate (words.dropWhile isOption)
  let readsEscapes := (letters.filter (· ≠ 'n')).getLast? = some 'e'
  let (shown, ended) :=
    if readsEscapes then Format.unescape 0 text.toList else (text.toList, false)
  emit "echo" (shown ++ if ended || letters.contains 'n' then [] else ['\n'])

/-- Fills a format with words. -/
def printf (words : List String) : Sh Int := do
  match words with
  | [] => refuse "printf" "missing operand"
  | format :: words =>
    let output := Format.printf format.toList (words.length + 1) words
    for warning in output.warnings do Sh.report s!"printf: {warning}"
    let status ← emit "printf" output.text
    return if output.warnings.isEmpty then status else 1

/-- Writes the texts of files. -/
def cat (words : List String) : Sh Int :=
  withOptions "cat" "u" "" words fun o =>
    overFiles o.words (fun word reason => s!"cat: {word}: {reason}") fun _ text => do
      if text.isEmpty || (← Sh.write 1 text) then return 0
      complain "cat" "standard output: Bad file descriptor"

/-- Writes its input to the output and to files. -/
def tee (words : List String) : Sh Int :=
  withOptions "tee" "ai" "" words fun o => do
    let text := (← input).toOption.getD []
    let status ← emit "tee" text
    let statuses ← o.words.mapM fun word => do
      let s ← get
      let p := pathOf word
      let before := (s.files.readFile s.directory p).toOption.getD []
      let kept := if o.has 'a' then before else []
      match s.files.writeFile s.directory p (kept ++ toBytes text) with
      | .ok files =>
        set { s with files }
        return (0 : Int)
      | .error fault => complain "tee" s!"{word}: {fault.reason.text}"
    return statuses.foldl max status

/-! ## The ends of texts -/

/-- How much of a text is asked for: a count of lines or characters, which may be counted from the
other end. -/
structure Amount where
  ofLines : Bool
  fromOther : Bool
  count : Nat

/-- The amount that options ask for; `mark` is the sign that counts from the other end. -/
def Amount.ofOptions (mark : Char) (o : Options) : Except String Amount := do
  let letter := ((o.given.reverse.find? fun (c, _) => c = 'n' || c = 'c').map (·.1)).getD 'n'
  let word := (o.value? letter).getD "10"
  let fromOther := word.toList.head? = some mark
  let digits := if fromOther || word.toList.head? = some '-' then word.toList.drop 1
    else word.toList
  match nat? (String.ofList digits) with
  | some count => return ⟨letter = 'n', fromOther, count⟩
  | none =>
    let units := if letter = 'n' then "lines" else "bytes"
    throw s!"invalid number of {units}: '{word}'"

/-- A part of a list of pieces: its front if `front`, otherwise its end. -/
def Amount.take {α : Type} (a : Amount) (front : Bool) (pieces : List α) : List α :=
  match front, a.fromOther with
  | true, false => pieces.take a.count
  | true, true => pieces.take (pieces.length - a.count)
  | false, false => pieces.drop (pieces.length - a.count)
  | false, true => pieces.drop (a.count - 1)

/-- The part of a text that is asked for. -/
def Amount.part (a : Amount) (front : Bool) (text : List Char) : List Char :=
  if a.ofLines then (a.take front (lines text)).flatten else a.take front text

/-- Words in which a count with a dash stands for a count of lines. -/
def withCount : List String → List String
  | [] => []
  | word :: rest =>
    match word.toList with
    | '-' :: digits =>
      if (nat? (String.ofList digits)).isSome then "-n" :: String.ofList digits :: rest
      else word :: rest
    | _ => word :: rest

/-- Writes one end of each file. More than one file have headings. -/
def ends (name : String) (front : Bool) (words : List String) : Sh Int :=
  withOptions name "qv" "nc" (withCount words) fun o => do
    match Amount.ofOptions (if front then '-' else '+') o with
    | .error message => complain name message
    | .ok amount =>
      let headed := (1 < o.words.length || o.has 'v') && !o.has 'q'
      let cannot (word reason : String) :=
        if reason = FileSystem.Reason.isDirectory.text then
          s!"{name}: error reading '{word}': {reason}"
        else s!"{name}: cannot open '{word}' for reading: {reason}"
      overFiles o.words cannot fun word text => do
        let shown := if word = "-" then "standard input" else word
        let gap := if o.words.head? = some word then "" else "\n"
        let heading := if headed then s!"{gap}==> {shown} <==\n" else ""
        emit name (heading.toList ++ amount.part front text)

/-! ## Counts -/

/-- What is counted in a text, in the order in which counts are written, with the count. -/
def counts : List (Char × (List Char → Nat)) :=
  [('l', fun text => text.count '\n'),
    ('w', fun text =>
      (Mark.fields [' ']
        (text.map fun c => .char (if Arithmetic.isBlank c then ' ' else c) false true)).length),
    ('m', List.length), ('c', List.length)]

/-- The count of characters of a file that is no stream. -/
def regularSize? (word : String) : Sh (Option Nat) := do
  let s ← get
  if word = "-" then
    match ← Sh.channel? 0 with
    | some (_, .file place _ _) => return some (← Sh.fileBytes place).length
    | _ => return none
  else return ((s.files.readFile s.directory (pathOf word)).toOption).map List.length

/-- Writes counts of lines, words and characters. -/
def wc (words : List String) : Sh Int :=
  withOptions "wc" "lwmc" "" words fun o => do
    let asked := counts.filter fun (c, _) =>
      if o.given.isEmpty then c ≠ 'm' else o.has c
    let files := if o.words.isEmpty then ["-"] else o.words
    let sizes ← files.mapM regularSize?
    let total := (sizes.filterMap id).foldl (· + ·) 0
    let width :=
      if files.length = 1 && asked.length = 1 then 1
      else max (toString total).length (if sizes.contains none then 7 else 1)
    let row (numbers : List Nat) (name : String) :=
      " ".intercalate (numbers.map fun n => padLeft width (toString n)) ++
        (if name = "" then "" else " " ++ name) ++ "\n"
    let sums ← files.mapM fun word => do
      match ← contents word with
      | .ok text =>
        let numbers := asked.map fun (_, count) => count text
        let _ ← emit "wc" (row numbers (if o.words.isEmpty then "" else word)).toList
        return ((0 : Int), numbers)
      | .error reason => return (← complain "wc" s!"{word}: {reason}", [])
    if 1 < files.length then
      let numbers := asked.zipIdx.map fun (_, i) =>
        (sums.map fun (_, numbers) => numbers.getD i 0).foldl (· + ·) 0
      let _ ← emit "wc" (row numbers "total").toList
    return (sums.map (·.1)).foldl max 0

/-! ## Lines -/

/-- The number at the front of a line, as a count of units of ten to a power below zero. -/
def leadingNumber (line : List Char) : Int × Nat :=
  let s := line.dropWhile fun c => c = ' ' || c = '\t'
  let negative := s.head? = some '-'
  let body := if negative then s.drop 1 else s
  let whole := body.takeWhile Char.isDigit
  let places :=
    match body.drop whole.length with
    | '.' :: rest => rest.takeWhile Char.isDigit
    | _ => []
  let n : Int := natOf (whole ++ places)
  (if negative then -n else n, places.length)

/-- Whether a line comes before another one or is equal to it. -/
def isBefore (byNumber : Bool) (a b : List Char) : Bool :=
  let inOrder : Bool := String.ofList a ≤ String.ofList b
  if byNumber then
    let (m, i) := leadingNumber a
    let (n, j) := leadingNumber b
    let (m, n) := (m * (Nat.pow 10 j : Nat), n * (Nat.pow 10 i : Nat))
    m < n || (m = n && inOrder)
  else inOrder

/-- Removes lines that are equal to the one before. -/
def withoutRepeats (same : List Char → List Char → Bool) :
    (last : Option (List Char)) → List (List Char) → List (List Char)
  | _, [] => []
  | last, line :: rest =>
    if last.any (same · line) then withoutRepeats same last rest
    else line :: withoutRepeats same (some line) rest

/-- Writes the lines of files in order. -/
def sort (words : List String) : Sh Int :=
  withOptions "sort" "nrus" "" words fun o => do
    let files := if o.words.isEmpty then ["-"] else o.words
    let texts ← files.mapM fun word => return (word, ← contents word)
    match texts.findSome? fun (word, text) =>
        match text with
        | .error reason => some (word, reason)
        | .ok _ => none with
    | some (word, reason) =>
      Sh.report s!"sort: cannot read: {word}: {reason}"
      return 2
    | none =>
      let all := texts.flatMap fun (_, text) => (lines (text.toOption.getD [])).map bare
      let before := isBefore (o.has 'n')
      let sorted := all.mergeSort fun a b => if o.has 'r' then before b a else before a b
      let same (a b : List Char) : Bool :=
        if o.has 'n' then
          let (m, i) := leadingNumber a
          let (n, j) := leadingNumber b
          m * (Nat.pow 10 j : Nat) = n * (Nat.pow 10 i : Nat)
        else a = b
      let shown := if o.has 'u' then withoutRepeats same none sorted else sorted
      emit "sort" (shown.flatMap (· ++ ['\n']))

/-- Lines that are equal to their neighbours, with their count. -/
def runs : List (List Char) → List (Nat × List Char)
  | [] => []
  | line :: rest =>
    match runs rest with
    | (n, other) :: more =>
      if other = line then (n + 1, line) :: more else (1, line) :: (n, other) :: more
    | [] => [(1, line)]

/-- Writes lines that are equal to their neighbours once. -/
def uniq (words : List String) : Sh Int :=
  withOptions "uniq" "cdu" "" words fun o =>
    overFiles (o.words.take 1) (fun word reason => s!"uniq: {word}: {reason}") fun _ text => do
      let found := (runs ((lines text).map bare)).filter fun (n, _) =>
        (!o.has 'd' || 1 < n) && (!o.has 'u' || n = 1)
      let shown := found.flatMap fun (n, line) =>
        (if o.has 'c' then (padLeft 7 (toString n) ++ " ").toList else []) ++ line ++ ['\n']
      emit "uniq" shown

/-- The ranges of places that a list of them stands for; none if it is no such list. -/
def places? (list : String) : Option (List (Nat × Option Nat)) :=
  (list.splitOn ",").mapM fun item =>
    match item.splitOn "-" with
    | [one] => (nat? one).map fun n => (n, some n)
    | [first, last] =>
      if first = "" then (nat? last).map fun n => (1, some n)
      else if last = "" then (nat? first).map fun n => (n, none)
      else do return (← nat? first, some (← nat? last))
    | _ => none

/-- The pieces at the places of a list, which are counted from one. -/
def atPlaces {α : Type} (ranges : List (Nat × Option Nat)) (pieces : List α) : List α :=
  pieces.zipIdx.filterMap fun (piece, i) =>
    let isWanted := ranges.any fun (first, last) => first ≤ i + 1 && last.all (i + 1 ≤ ·)
    if isWanted then some piece else none

/-- Writes parts of lines. -/
def cut (words : List String) : Sh Int :=
  withOptions "cut" "sn" "bcdf" words fun o => do
    let letter := o.given.findSome? fun (c, _) => if "bcf".toList.contains c then some c else none
    match letter with
    | none => refuse "cut" "you must specify a list of bytes, characters, or fields"
    | some letter =>
      match places? ((o.value? letter).getD "") with
      | none => refuse "cut" "invalid field range"
      | some ranges =>
        let separator := (o.value? 'd').getD "\t"
        let part (line : List Char) : List (List Char) :=
          if letter ≠ 'f' then [atPlaces ranges line]
          else if !separator.toList.head?.any line.contains then
            if o.has 's' then [] else [line]
          else
            let fields := (String.ofList line).splitOn separator
            [(separator.intercalate (atPlaces ranges fields)).toList]
        overFiles o.words (fun word reason => s!"cut: {word}: {reason}") fun _ text =>
          let parts := (lines text).flatMap fun line => part (bare line)
          emit "cut" (parts.flatMap (· ++ ['\n']))

/-! ## Characters -/

/-- The characters of a set: ranges, classes and escapes. -/
def setChars : Nat → List Char → List Char
  | 0, _ | _, [] => []
  | fuel + 1, c :: rest =>
    match Pattern.class? ((c :: rest).map fun c => (c, false)) with
    | some (ranges, length) =>
      ranges.flatMap (fun (first, last) => range first last) ++
        setChars fuel ((c :: rest).drop length)
    | none =>
      let (first, rest) := single c rest
      match rest with
      | '-' :: d :: behind =>
        let (last, behind) := single d behind
        range first last ++ setChars fuel behind
      | _ => first :: setChars fuel rest
where
  /-- A character, which an escape may stand for. -/
  single (c : Char) (rest : List Char) : Char × List Char :=
    if c ≠ '\\' then (c, rest)
    else
      let (meant, length) := Format.escape rest
      match rest with
      | d :: more => if length = 0 then (d, more) else (meant, rest.drop length)
      | [] => ('\\', [])
  /-- The characters from one to another one. -/
  range (first last : Char) : List Char :=
    (List.range (last.toNat + 1 - first.toNat)).map fun i => Char.ofNat (first.toNat + i)

/-- Removes characters of a set that are equal to the one before. -/
def squeeze (set : List Char) : (last : Option Char) → List Char → List Char
  | _, [] => []
  | last, c :: rest =>
    if last = some c && set.contains c then squeeze set last rest
    else c :: squeeze set (some c) rest

/-- Writes the input in other characters. -/
def tr (words : List String) : Sh Int :=
  withOptions "tr" "cCds" "" words fun o => do
    let deletes := o.has 'd'
    let squeezes := o.has 's'
    let needed := if deletes = squeezes then 2 else 1
    let tell (message hint : String) : Sh Int := do
      Sh.report s!"tr: {message}"
      if hint ≠ "" then Sh.report hint
      Sh.report "Try 'tr --help' for more information."
      return 1
    match o.words with
    | [] => tell "missing operand" ""
    | first :: others =>
      if others.length + 1 < needed then
        tell s!"missing operand after '{first}'"
          (if deletes then "Two strings must be given when both deleting and squeezing repeats."
            else "Two strings must be given when translating.")
      else if deletes && needed ≤ others.length then
        let extra := others.getD (needed - 1) ""
        tell s!"extra operand '{extra}'"
          "Only one string may be given when deleting without squeezing repeats."
      else if 1 < others.length then
        let extra := others.getD 1 ""
        tell s!"extra operand '{extra}'" ""
      else
        let set := setChars (first.length + 1) first.toList
        let set :=
          if o.has 'c' || o.has 'C' then
            ((List.range 256).map Char.ofNat).filter fun c => !set.contains c
          else set
        let second := others.head?.map fun word => setChars (word.length + 1) word.toList
        let translated (c : Char) : Char :=
          match second with
          | some target =>
            if deletes then c
            else
              match (set.zipIdx.reverse.find? fun (d, _) => d = c) with
              | some (_, i) => (target[i]?).getD (target.getLast?.getD c)
              | none => c
          | none => c
        let text := (← input).toOption.getD []
        let kept := if deletes then text.filter fun c => !set.contains c else text.map translated
        emit "tr" (if squeezes then squeeze (second.getD set) none kept else kept)

/-! ## Numbers and names -/

/-- The integer that a word stands for. -/
def int? (word : String) : Option Int :=
  match word.toList with
  | '-' :: digits => (nat? (String.ofList digits)).map fun n => -(n : Int)
  | '+' :: digits => (nat? (String.ofList digits)).map fun n => (n : Int)
  | _ => (nat? word).map fun n => (n : Int)

/-- Writes a sequence of numbers. -/
def seq (words : List String) : Sh Int := do
  -- a number below zero is no option
  let split := words.zipIdx.find? fun (word, i) =>
    (int? word).isSome && (i = 0 || (words[i - 1]?) ≠ some "-s")
  let count := (split.map (·.2)).getD words.length
  withOptions "seq" "w" "s" (words.take count) fun o => do
    let operands := o.words ++ words.drop count
    match operands.find? fun word => (int? word).isNone with
    | some word => refuse "seq" s!"invalid floating point argument: '{word}'"
    | none =>
      let write (first step last : Int) : Sh Int := do
        if step = 0 then return ← refuse "seq" "invalid Zero increment value: '0'"
        let count := ((last - first) / step + 1).toNat
        let numbers := (List.range count).map fun (i : Nat) => first + step * i
        let width := if o.has 'w' then
            ([first, last].map fun n => (toString n).length).foldl max 0
          else 0
        let shown (n : Int) :=
          let digits := toString n.natAbs
          let zeros := width - digits.length - (if n < 0 then 1 else 0)
          (if n < 0 then "-" else "") ++ String.ofList (List.replicate zeros '0') ++ digits
        let text := ((o.value? 's').getD "\n").intercalate (numbers.map shown)
        emit "seq" (if numbers.isEmpty then [] else text.toList ++ ['\n'])
      match operands.filterMap int? with
      | [last] => write 1 1 last
      | [first, last] => write first 1 last
      | [first, step, last] => write first step last
      | [] => refuse "seq" "missing operand"
      | _ =>
        let extra := operands.getD 3 ""
        refuse "seq" s!"extra operand '{extra}'"

/-- A path without slashes at its end. -/
def withoutSlashes (path : List Char) : List Char :=
  match path.reverse.dropWhile (· = '/') with
  | [] => if path.isEmpty then [] else ['/']
  | kept => kept.reverse

/-- Writes the last name of a path, without a part at its end. -/
def basename (words : List String) : Sh Int :=
  withOptions "basename" "" "" words fun o => do
    match o.words with
    | [] => refuse "basename" "missing operand"
    | [path] => emit "basename" (nameOf path ++ ['\n'])
    | [path, ending] =>
      let name := nameOf path
      let base := name.take (name.length - ending.length)
      let cuts := ending.toList.isSuffixOf name && !base.isEmpty
      emit "basename" ((if cuts then base else name) ++ ['\n'])
    | words =>
      let extra := words.getD 2 ""
      refuse "basename" s!"extra operand '{extra}'"
where
  /-- The last name of a path. -/
  nameOf (path : String) : List Char :=
    let s := withoutSlashes path.toList
    if s = ['/'] then s else (s.reverse.takeWhile (· ≠ '/')).reverse

/-- Writes paths without their last names. -/
def dirname (words : List String) : Sh Int :=
  withOptions "dirname" "" "" words fun o => do
    if o.words.isEmpty then return ← refuse "dirname" "missing operand"
    emit "dirname" (o.words.flatMap fun path =>
      let s := withoutSlashes path.toList
      let above := s.reverse.dropWhile (· ≠ '/')
      let shown := if above.isEmpty then ['.'] else withoutSlashes above.reverse
      shown ++ ['\n'])

/-! ## Time -/

/-- The milliseconds that a word of seconds stands for: none if it is no such word, and none inside
if they never end. -/
def milliseconds? (word : String) : Option (Option Nat) :=
  let chars := word.toList
  let units : List (Char × Nat) := [('s', 1), ('m', 60), ('h', 3600), ('d', 86400)]
  let unit := chars.getLast?.bind fun c => units.lookup c
  let body := if unit.isSome then chars.dropLast else chars
  if body.any Arithmetic.isBlank || body.contains '_' then none
  else
    (Literal.float? body).bind fun x =>
      match x.signedRatio? with
      | some (n, d) =>
        if n < 0 then none else some (some ((n.toNat * 1000 * unit.getD 1 + d - 1) / d))
      | none => if x.text = "inf" then some none else none

/-- Lets time pass. -/
def sleep (words : List String) : Sh Int :=
  withOptions "sleep" "" "" words fun o => do
    if o.words.isEmpty then return ← refuse "sleep" "missing operand"
    match o.words.filter fun word => (milliseconds? word).isNone with
    | [] =>
      for word in o.words do
        match milliseconds? word with
        | some (some n) => Sh.pass n
        | _ => throw .stuck
      return 0
    | bad =>
      for word in bad do Sh.report s!"sleep: invalid time interval '{word}'"
      Sh.report "Try 'sleep --help' for more information."
      return 1

end Branchwork.Script.Utility
