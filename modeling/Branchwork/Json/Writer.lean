import Branchwork.Text.Half
import Branchwork.Text.Hex
import Branchwork.Value.Display

/-!
# Writing JSON

`Json.write` writes a value as indented JSON in ASCII: every collection that is not empty has its
members on lines of their own, two blanks further in. Values that JSON cannot say are written as
the text that they stand for. A key has to be a text, a number, a boolean or null.
-/

namespace Branchwork.Json

/-- The names that JSON texts give to the numbers without digits. -/
def numberNames : Binary64.Names := ⟨"Infinity", "NaN"⟩

/-- The escape of one 16-bit unit. -/
def unitEscape (n : Nat) : List Char := '\\' :: 'u' :: Text.hexDigits 4 n

/-- A character inside a string. A character above the 16-bit range is written as two halves, and
a half that stands alone as it is. -/
def escapeChar (c : Char) : List Char :=
  if c = '"' || c = '\\' then ['\\', c]
  else if c = '\n' then ['\\', 'n']
  else if c = '\r' then ['\\', 'r']
  else if c = '\t' then ['\\', 't']
  else if c = '\x0c' then ['\\', 'f']
  else if c = '\x08' then ['\\', 'b']
  else if 0x20 ≤ c.toNat && c.toNat ≤ 0x7e then [c]
  else
    match Text.half? c with
    | some half => unitEscape half
    | none =>
      if c.toNat < 0x10000 then unitEscape c.toNat
      else
        let n := c.toNat - 0x10000
        unitEscape (0xd800 + n / 0x400) ++ unitEscape (0xdc00 + n % 0x400)

/-- A string with its quotes. -/
def string (s : List Char) : List Char := '"' :: (s.flatMap escapeChar ++ ['"'])

/-- The text of a key, or the word for its kind if it cannot be a key. -/
def keyText : Value → Except String (List Char)
  | .text s => .ok s.toList
  | .float x => .ok (x.render numberNames).toList
  | .bool b => .ok (if b then "true" else "false").toList
  | .null => .ok "null".toList
  | .int i => .ok (toString i).toList
  | v => .error v.kind

/-- A line break and the blanks of a level. -/
def newLine (level : Nat) : List Char := '\n' :: List.replicate (2 * level) ' '

mutual

/-- A value as JSON, at a level of indentation. -/
def writeAt (level : Nat) : Value → Except String (List Char)
  | .null => .ok "null".toList
  | .bool b => .ok (if b then "true" else "false").toList
  | .int i => .ok (toString i).toList
  | .float x => .ok (x.render numberNames).toList
  | .list items | .tuple items =>
    if items.isEmpty then .ok ['[', ']']
    else (writeItems (level + 1) items).map fun body => '[' :: (body ++ newLine level ++ [']'])
  | .map entries =>
    if entries.isEmpty then .ok ['\x7b', '\x7d']
    else (writeEntries (level + 1) entries).map fun body =>
      '\x7b' :: (body ++ newLine level ++ ['\x7d'])
  | v => .ok (string v.plain.toList)

/-- The members of a list, each on a new line, with commas between them. -/
def writeItems (level : Nat) : List Value → Except String (List Char)
  | [] => .ok []
  | v :: rest => do
    let first ← writeAt level v
    let more ← writeItems level rest
    return newLine level ++ first ++ (if rest.isEmpty then more else ',' :: more)

/-- The entries of a mapping, each on a new line, with commas between them. -/
def writeEntries (level : Nat) : List (Value × Value) → Except String (List Char)
  | [] => .ok []
  | (k, v) :: rest => do
    let key ← keyText k
    let first ← writeAt level v
    let more ← writeEntries level rest
    return newLine level ++ string key ++ [':', ' '] ++ first ++
      (if rest.isEmpty then more else ',' :: more)

end

/-- A value as indented JSON, or the word for the kind of a key that JSON cannot say. -/
def write (v : Value) : Except String String := (writeAt 0 v).map String.ofList

end Branchwork.Json
