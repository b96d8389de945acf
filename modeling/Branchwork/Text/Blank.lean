/-!
# Blanks

The blank characters and the three operations on text that depend on them: trimming, splitting
into words, and trimming at one end. The class holds the Unicode spaces, the line and paragraph
separators, and the ASCII controls that separate text (tab to carriage return, and the four
separators `0x1c` to `0x1f`).

Main statement: `isBlank_of_isWhitespace`, every character that Lean calls whitespace is blank.
-/

namespace Branchwork.Text

/-- The code points above ASCII that are blank. -/
def isWideBlank (n : Nat) : Bool :=
  n == 0x85 || n == 0xa0 || n == 0x1680 || (0x2000 ≤ n && n ≤ 0x200a) ||
    n == 0x2028 || n == 0x2029 || n == 0x202f || n == 0x205f || n == 0x3000

/-- A character that separates words. -/
def isBlank (c : Char) : Bool :=
  let n := c.toNat
  n == 0x20 || (0x09 ≤ n && n ≤ 0x0d) || (0x1c ≤ n && n ≤ 0x1f) || isWideBlank n

theorem isBlank_of_isWhitespace {c : Char} (h : c.isWhitespace = true) : isBlank c = true := by
  simp only [Char.isWhitespace, Bool.or_eq_true, decide_eq_true_eq] at h
  rcases h with ((rfl | rfl) | rfl) | rfl <;> decide

/-- Drops the leading blanks. -/
def trimLeft (s : List Char) : List Char := s.dropWhile isBlank

/-- Drops the trailing blanks. -/
def trimRight (s : List Char) : List Char := (s.reverse.dropWhile isBlank).reverse

/-- Drops the blanks at both ends. -/
def trim (s : List Char) : List Char := trimRight (trimLeft s)

/-- The words of a text; `word` holds the letters of the current word, last first. -/
def wordsFrom (word : List Char) : List Char → List (List Char)
  | [] => if word.isEmpty then [] else [word.reverse]
  | c :: rest =>
    if isBlank c then
      if word.isEmpty then wordsFrom [] rest else word.reverse :: wordsFrom [] rest
    else wordsFrom (c :: word) rest

/-- The maximal runs of characters that are not blank, in order. -/
def words (s : List Char) : List (List Char) := wordsFrom [] s

end Branchwork.Text

namespace Branchwork

/-- A text without the blanks at its ends. -/
def trimText (s : String) : String := String.ofList (Text.trim s.toList)

/-- The words of a text. -/
def textWords (s : String) : List String := (Text.words s.toList).map String.ofList

end Branchwork
