/-!
# Slugs

A slug is a text made safe as a file name: the part after the first `://`, with every run of
characters other than ASCII letters, digits, `.`, `_` and `-` written as one `_`, and without
`_` at its ends. The text `output` stands for a slug that would be empty.
-/

namespace Branchwork.Pattern

/-- A character that a slug keeps. -/
def isSlugChar (c : Char) : Bool := c.isAlphanum || c = '.' || c = '_' || c = '-'

/-- The text after the first `://`, if there is one. -/
def afterScheme? : List Char → Option (List Char)
  | [] => none
  | ':' :: '/' :: '/' :: rest => some rest
  | _ :: rest => afterScheme? rest

/-- Writes each run of other characters as one `_`; `inRun` says that such a run goes on. -/
def squeeze (inRun : Bool) : List Char → List Char
  | [] => []
  | c :: rest =>
    if isSlugChar c then c :: squeeze false rest
    else if inRun then squeeze true rest
    else '_' :: squeeze true rest

/-- Drops the underscores at both ends. -/
def dropUnderscores (s : List Char) : List Char :=
  ((s.dropWhile (· = '_')).reverse.dropWhile (· = '_')).reverse

/-- The slug of a list of characters. -/
def slugOf (name : List Char) : List Char :=
  match dropUnderscores (squeeze false ((afterScheme? name).getD name)) with
  | [] => "output".toList
  | slug => slug

/-- A text made safe as a file name. -/
def slugify (name : String) : String := String.ofList (slugOf name.toList)

end Branchwork.Pattern
