import Branchwork.Text.Half

/-!
# Characters of YAML texts

The classes of characters that the format speaks of. The end of a text is read as `Yaml.textEnd`,
a character that no text may hold.
-/

namespace Branchwork.Yaml

/-- What is read behind the last character of a text. -/
def textEnd : Char := '\x00'

/-- The characters that a text may hold; halves of characters are none. -/
def isAllowed (c : Char) : Bool :=
  let n := c.toNat
  n = 0x09 || n = 0x0a || n = 0x0d || (0x20 ≤ n && n ≤ 0x7e) || n = 0x85 ||
    (0xa0 ≤ n && n ≤ 0xfffd) || (0x10000 ≤ n && (Text.half? c).isNone)

/-- The characters that end a line. -/
def isBreak (c : Char) : Bool :=
  c = '\r' || c = '\n' || c = '\x85' || c = '\u2028' || c = '\u2029'

/-- The end of a line or of the text. -/
def isLineEnd (c : Char) : Bool := c = textEnd || isBreak c

/-- A space, or the end of a line or of the text. -/
def isSpaceOrEnd (c : Char) : Bool := c = ' ' || isLineEnd c

/-- A space or a tab, or the end of a line or of the text. -/
def isBlankOrEnd (c : Char) : Bool := c = '\t' || isSpaceOrEnd c

/-- A character of the name of an anchor, a directive or a tag handle. -/
def isNameChar (c : Char) : Bool := c.isAlphanum || c = '-' || c = '_'

/-- A character of a tag. -/
def isTagChar (c : Char) : Bool := c.isAlphanum || "-;/?:@&=+$,_.!~*'()[]%".toList.contains c

/-- The characters that cannot start a plain scalar by themselves. -/
def isIndicator (c : Char) : Bool := "-?:,[]\x7b\x7d#&*!|>'\"%@`".toList.contains c

/-- The brackets and commas of flow collections. -/
def isFlowIndicator (c : Char) : Bool := ",[]\x7b\x7d".toList.contains c

end Branchwork.Yaml
