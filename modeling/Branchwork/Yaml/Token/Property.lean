import Branchwork.Number.DigitLimit
import Branchwork.Text.Hex
import Branchwork.Text.Utf8
import Branchwork.Yaml.Token
import Branchwork.Yaml.Token.Cursor

/-!
# Reading anchors, tags and directives

What may stand in front of a node or of a document: the anchor that names a node and the alias that
repeats it, the tag that says what kind of value a node is, and the directives of a document.
-/

namespace Branchwork.Yaml.Scan

/-- The text of a list of characters. -/
def textOf (s : List Char) : String := String.ofList s

/-- The characters behind the name of an anchor. -/
def isAnchorEnd (c : Char) : Bool := isBlankOrEnd c || "?:,]\x7d%@`".toList.contains c

/-- Takes the name of an anchor or an alias behind its mark. -/
def anchorName : Scan String := do
  skip 1
  let name ← takeWhile isNameChar
  if name.isEmpty || !isAnchorEnd (← peek) then fail .anchor
  return textOf name

/-- Takes the bytes of characters written as `%` and two hexadecimal digits. -/
def escapedBytes : Nat → List UInt8 → Scan (List UInt8)
  | 0, bytes => return bytes
  | fuel + 1, bytes => do
    if (← peek) ≠ '%' then return bytes
    skip 1
    let digits ← ahead 2
    match if digits.length = 2 then Text.hexNumber? digits else none with
    | none => fail .tag
    | some n =>
      skip 2
      escapedBytes fuel (bytes ++ [n.toUInt8])

/-- Takes the characters of a tag. -/
def tagText : Nat → List Char → Scan (List Char)
  | 0, read => return read
  | fuel + 1, read => do
    let run ← takeWhile fun c => isTagChar c && c ≠ '%'
    let read := read ++ run
    if (← peek) = '%' then
      match Utf8.decode (← escapedBytes (← left) []) with
      | .error _ => fail .tag
      | .ok s => tagText fuel (read ++ s.toList)
    else return read

/-- Takes the part of a tag behind its handle, which may not be empty. -/
def tagSuffix : Scan String := do
  let before ← left
  let suffix ← tagText (before + 1) []
  if (← left) = before then fail .tag
  return textOf suffix

/-- Takes the handle of a tag: `!`, `!!`, or a name between two marks. -/
def tagHandle : Scan String := do
  if (← peek) ≠ '!' then fail .tag
  if (← peekAt 1) = ' ' then return textOf (← take 1)
  let name := ((← get).rest.drop 1).takeWhile isNameChar
  if (← peekAt (name.length + 1)) ≠ '!' then fail .tag
  return textOf (← take (name.length + 2))

/-- Takes a tag. -/
def tag : Scan Token := do
  let c ← peekAt 1
  let found ←
    if c = '<' then do
      -- a full name in angle brackets
      skip 2
      let suffix ← tagSuffix
      if (← peek) ≠ '>' then fail .tag
      skip 1
      pure (Token.tag none suffix)
    else if isBlankOrEnd c then do
      -- the mark alone
      skip 1
      pure (Token.tag none "!")
    else do
      -- a further mark in the word ends a handle
      let word := ((← get).rest.drop 1).takeWhile fun c => !isSpaceOrEnd c
      let handle ← if word.contains '!' then tagHandle else (textOf <$> take 1)
      pure (Token.tag (some handle) (← tagSuffix))
  unless isSpaceOrEnd (← peek) do fail .tag
  return found

/-- Takes a number of the version of the format. -/
def versionNumber : Scan Nat := do
  let digits ← takeWhile Char.isDigit
  if digits.isEmpty then fail .token
  if DigitLimit.greatest < digits.length then throw (.tooManyDigits digits.length)
  return digits.foldl (fun n c => 10 * n + (c.toNat - 48)) 0

/-- Takes the value of a directive with the given name. -/
def directiveValue (name : List Char) : Scan Directive := do
  if name = "YAML".toList then
    skipWhile (· = ' ')
    let major ← versionNumber
    if (← peek) ≠ '.' then fail .token
    skip 1
    let minor ← versionNumber
    unless isSpaceOrEnd (← peek) do fail .token
    return .version major minor
  else if name = "TAG".toList then
    skipWhile (· = ' ')
    let handle ← tagHandle
    if (← peek) ≠ ' ' then fail .tag
    skipWhile (· = ' ')
    let start ← tagSuffix
    unless isSpaceOrEnd (← peek) do fail .tag
    return .handle handle start
  else
    skipWhile fun c => !isLineEnd c
    return .other

/-- Takes a directive. -/
def directive : Scan Token := do
  skip 1
  let name ← takeWhile isNameChar
  if name.isEmpty || !isSpaceOrEnd (← peek) then fail .token
  let found ← directiveValue name
  skipLineRest
  return .directive found

end Branchwork.Yaml.Scan
