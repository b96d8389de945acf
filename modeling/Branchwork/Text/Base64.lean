/-!
# Bytes as text in base 64

Four characters of six bits each stand for three bytes. Characters outside the alphabet are passed
over. A text ends at its padding, or with a whole group of four.
-/

namespace Branchwork.Text

/-- The six bits of a character of the alphabet. -/
def sixBits? (c : Char) : Option Nat :=
  if 'A' ≤ c && c ≤ 'Z' then some (c.toNat - 65)
  else if 'a' ≤ c && c ≤ 'z' then some (c.toNat - 71)
  else if c.isDigit then some (c.toNat + 4)
  else if c = '+' then some 62
  else if c = '/' then some 63
  else none

/-- Reads the rest of a text. `count` characters of the current group are read, `kept` holds their
bits that belong to no byte yet, and `pads` counts the padding behind them. -/
def base64From (count kept pads : Nat) : List Char → Option (List UInt8)
  | [] => if count = 0 then some [] else none
  | c :: rest =>
    if c = '=' then
      if 2 ≤ count && 4 ≤ count + pads + 1 then some [] else base64From count kept (pads + 1) rest
    else
      match sixBits? c with
      | none => base64From count kept pads rest
      | some bits =>
        if count = 0 then base64From 1 bits 0 rest
        else if count = 1 then
          (base64From 2 (bits % 16) 0 rest).map ((kept * 4 + bits / 16).toUInt8 :: ·)
        else if count = 2 then
          (base64From 3 (bits % 4) 0 rest).map ((kept * 16 + bits / 4).toUInt8 :: ·)
        else (base64From 0 0 0 rest).map ((kept * 64 + bits).toUInt8 :: ·)

/-- The bytes that a text in base 64 stands for. -/
def base64? (s : List Char) : Option (List UInt8) := base64From 0 0 0 s

end Branchwork.Text
