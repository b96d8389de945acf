import Branchwork.Script.Pattern

/-!
# Fields

What a word stands for is a row of marks: characters, of which some may end a field, and the places
where a field ends or exists in any case. `fields` makes fields of it. A separator that is a blank
belongs to the blanks around it; every other separator ends a field, even an empty one.

Main statement: `fields_chars`, characters that cannot end a field make one field.
-/

namespace Branchwork.Script

/-- A part of what a word stands for: a character, which is quoted or not and may end a field
(`splits`), the end of a field, which is like a blank that ends it, or a pair of quotes, with which
a field exists even if it is empty. -/
inductive Mark where
  | char (c : Char) (quoted splits : Bool)
  | gap
  | solid
deriving DecidableEq, Repr

namespace Mark

/-- The characters of a text as marks. -/
def ofText (quoted splits : Bool) (s : List Char) : List Mark := s.map (.char · quoted splits)

/-- The text that marks stand for where they are not split; a space stands for the end of a
field. -/
def plain : List Mark → List Char
  | [] => []
  | .char c _ _ :: rest => c :: plain rest
  | .gap :: rest => ' ' :: plain rest
  | .solid :: rest => plain rest

/-- The pattern that marks stand for. -/
def glyphs : List Mark → List Glyph
  | [] => []
  | .char c quoted _ :: rest => (c, quoted) :: glyphs rest
  | .gap :: rest => (' ', true) :: glyphs rest
  | .solid :: rest => glyphs rest

/-- Whether a separator is a blank. -/
def isBlank (c : Char) : Bool := c = ' ' || c = '\t' || c = '\n'

/-- The fields that marks stand for, given the separators. `field` is the field that is open, last
glyph first, and `absorbs` tells that blanks have ended a field, so that another separator behind
them does not end one more. -/
def fieldsFrom (separators : List Char) (field : Option (List Glyph)) (absorbs : Bool) :
    List Mark → List (List Glyph)
  | [] => field.elim [] fun f => [f.reverse]
  | .solid :: rest => fieldsFrom separators (some (field.getD [])) false rest
  | .gap :: rest =>
    match field with
    | some f => f.reverse :: fieldsFrom separators none true rest
    | none => fieldsFrom separators none absorbs rest
  | .char c quoted splits :: rest =>
    if splits && separators.contains c then
      match field with
      | some f => f.reverse :: fieldsFrom separators none (isBlank c) rest
      | none =>
        if isBlank c then fieldsFrom separators none absorbs rest
        else if absorbs then fieldsFrom separators none false rest
        else [] :: fieldsFrom separators none false rest
    else fieldsFrom separators (some ((c, quoted) :: field.getD [])) false rest

/-- The fields that marks stand for. -/
def fields (separators : List Char) (marks : List Mark) : List (List Glyph) :=
  fieldsFrom separators none false marks

theorem fieldsFrom_chars (separators : List Char) (quoted : Bool) (f : List Glyph)
    (s : List Char) :
    fieldsFrom separators (some f) false (ofText quoted false s) =
      [f.reverse ++ s.map fun c => (c, quoted)] := by
  induction s generalizing f with
  | nil => simp [ofText, fieldsFrom]
  | cons c s ih =>
    have step := ih ((c, quoted) :: f)
    simp only [ofText, List.map_cons, fieldsFrom, Bool.false_and, Bool.false_eq_true, ↓reduceIte,
      Option.getD_some] at step ⊢
    rw [step]
    simp

theorem fields_chars (separators : List Char) (quoted : Bool) (s : List Char) :
    fields separators (.solid :: ofText quoted false s) = [s.map fun c => (c, quoted)] := by
  simpa [fields, fieldsFrom] using fieldsFrom_chars separators quoted [] s

end Mark

end Branchwork.Script
