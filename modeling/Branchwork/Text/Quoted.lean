import Branchwork.Text.Half
import Branchwork.Text.Hex
import Branchwork.Text.Printable

/-!
# Quoted texts

A text between quotes, in which a reader can tell every character. Single quotes are used unless
the text holds a single quote and no double quote. The quote in use, the backslash, tab, newline
and carriage return are escaped by a backslash, characters that are not printable by their code, and
halves of characters by theirs.
-/

namespace Branchwork.Text

/-- The escape of a character by its code, as short as the code allows. -/
def codeEscape (n : Nat) : List Char :=
  if n < 0x100 then '\\' :: 'x' :: hexDigits 2 n
  else if n < 0x10000 then '\\' :: 'u' :: hexDigits 4 n
  else '\\' :: 'U' :: hexDigits 8 n

/-- A character inside quotes. -/
def quoteChar (quote c : Char) : List Char :=
  if c = quote || c = '\\' then ['\\', c]
  else if c = '\n' then ['\\', 'n']
  else if c = '\r' then ['\\', 'r']
  else if c = '\t' then ['\\', 't']
  else if isPrintable c then [c]
  else codeEscape ((half? c).getD c.toNat)

/-- The quote that a text is written in. -/
def quoteFor (s : List Char) : Char := if s.contains '\'' && !s.contains '"' then '"' else '\''

/-- A text in quotes. -/
def quoted (s : List Char) : List Char :=
  let quote := quoteFor s
  quote :: (s.flatMap (quoteChar quote) ++ [quote])

/-- Bytes in quotes: those of printable ASCII characters are shown, others by their codes. -/
def quotedBytes (bytes : List UInt8) : List Char :=
  let chars := bytes.map fun b => Char.ofNat b.toNat
  let quote := quoteFor chars
  let one (c : Char) := if 0x7f ≤ c.toNat then codeEscape c.toNat else quoteChar quote c
  'b' :: quote :: (chars.flatMap one ++ [quote])

end Branchwork.Text

namespace Branchwork

/-- A text in quotes. -/
def quoteText (s : String) : String := String.ofList (Text.quoted s.toList)

end Branchwork
