import Branchwork.Proofs.Experiment.Description

/-!
# The short form of an edge

An edge may be written in one line: the names of its stages with blanks between them, an arrow, and its
output. The line is cut at its last arrow. A name may hold an arrow or a part of one; since a blank
stands at either side of the arrow that is meant, nothing in the names is taken for it or runs into it,
as long as the output has no arrow of its own. The blanks around the output are dropped when the line is
read and again when the mapping is read that it stands for, which is as good as once.

Main results:

* `splitLastArrow?_append` — names and output are found again.
* `Edge.read_shortForm` — an edge in the short form is read like the mapping that it stands for.
-/

namespace Branchwork

namespace Experiment

/-! ## The arrow -/

/-- The arrow in front of an output. -/
def arrow : List Char := ['-', '>']

theorem splitLastArrow?_cons {rest before behind : List Char}
    (later : splitLastArrow? rest = some (before, behind)) (c : Char) :
    splitLastArrow? (c :: rest) = some (c :: before, behind) := by
  unfold splitLastArrow?
  rw [later]

/-- In front of a text without arrows only the first half of one can make a difference. -/
theorem splitLastArrow?_cons_of_ne {rest : List Char} (later : splitLastArrow? rest = none) {c : Char}
    (other : c ≠ '-') : splitLastArrow? (c :: rest) = none := by
  unfold splitLastArrow?
  rw [later]
  dsimp only
  split
  · exact absurd rfl other
  · rfl

theorem splitLastArrow?_eq_none {s : List Char} (clear : ¬ arrow <:+: s) :
    splitLastArrow? s = none := by
  induction s with
  | nil => rfl
  | cons c rest ih =>
    have later : ¬ arrow <:+: rest := fun inside => clear (inside.trans (List.suffix_cons c rest).isInfix)
    unfold splitLastArrow?
    rw [ih later]
    dsimp only
    split
    · -- the text would begin with an arrow
      rename_i behind
      exact absurd ⟨[], behind, rfl⟩ clear
    · rfl

/-- A text is cut at an arrow that no other arrow follows. -/
theorem splitLastArrow?_append {behind : List Char} (clear : splitLastArrow? behind = none)
    (before : List Char) : splitLastArrow? (before ++ (arrow ++ behind)) = some (before, behind) := by
  induction before with
  | nil =>
    -- the second half of the arrow does not begin another one
    have half : splitLastArrow? ('>' :: behind) = none :=
      splitLastArrow?_cons_of_ne clear (by decide)
    show splitLastArrow? ('-' :: '>' :: behind) = some ([], behind)
    unfold splitLastArrow?
    rw [half]
    rfl
  | cons c before ih => exact splitLastArrow?_cons ih c

/-! ## Two spellings of an edge -/

/-- An edge in one line. -/
def Edge.shortForm (stages : List String) (output : String) : String :=
  " ".intercalate stages ++ " -> " ++ output

/-- An edge as a mapping, with its stages as a list. -/
def Edge.longForm (stages : List String) (output : String) : Mapping :=
  [(.text "stages", .list (stages.map .text)), (.text "output", .text output)]

theorem texts?_texts (stages : List String) : texts? (stages.map .text) = some stages := by
  induction stages with
  | nil => rfl
  | cons stage stages ih => rw [List.map_cons, texts?, ih, Option.map_some]

/-- What a mapping in the long form is read as: an edge, unless its output is blank. -/
theorem Edge.read_longForm (keys : List String) (place : String) (stages : List String)
    (output : String) :
    Edge.read keys place (.map (Edge.longForm stages output)) =
      if trimText output = "" then .error (.noOutput place)
      else .ok ⟨stages, trimText output,
        policyOf (keys.contains (trimText output)) (trimText output) none⟩ := by
  have outputs : readOutput place (Edge.longForm stages output) =
      if trimText output = "" then .error (.noOutput place) else .ok (trimText output) := rfl
  have names : readStages place (Edge.longForm stages output) = .ok stages := by
    show (texts? (stages.map Value.text)).elim (Except.error (Problem.badStages place)) Except.ok = _
    rw [texts?_texts]
    rfl
  have unsaid : readMaterialize place (Edge.longForm stages output) = .ok none := rfl
  show Edge.ofMapping keys place (Edge.longForm stages output) = _
  unfold Edge.ofMapping
  rw [outputs, names, unsaid]
  split <;> rfl

/-- The line of an edge stands for its mapping, with the output trimmed. -/
theorem Edge.ofShortForm?_shortForm {stages : List String}
    (words : ∀ stage ∈ stages, Text.IsWord stage.toList) {output : String}
    (arrowless : ¬ arrow <:+: output.toList) :
    Edge.ofShortForm? (Edge.shortForm stages output) =
      some (Edge.longForm stages (trimText output)) := by
  have line : (Edge.shortForm stages output).toList =
      ([' '].intercalate (stages.map String.toList) ++ [' ']) ++ (arrow ++ ' ' :: output.toList) := by
    simp [Edge.shortForm, arrow, String.toList_intercalate]
  -- the blank behind the arrow belongs to no arrow
  have clear : splitLastArrow? (' ' :: output.toList) = none :=
    splitLastArrow?_cons_of_ne (splitLastArrow?_eq_none arrowless) (by decide)
  have names : Text.words ([' '].intercalate (stages.map String.toList) ++ [' ']) =
      stages.map String.toList :=
    Text.words_spaced (List.forall_mem_map.mpr words)
  rw [Edge.ofShortForm?, line, splitLastArrow?_append clear, Option.map_some]
  dsimp only
  rw [names, Text.trim_blank (by decide), List.map_map]
  simp [Edge.longForm, trimText, Function.comp_def]

/-- An edge in the short form is read like the mapping with its stages as a list and its output, whether
that gives an edge or the output is refused as blank. -/
theorem Edge.read_shortForm {stages : List String}
    (words : ∀ stage ∈ stages, Text.IsWord stage.toList) {output : String}
    (arrowless : ¬ arrow <:+: output.toList) (keys : List String) (place : String) :
    Edge.read keys place (.text (Edge.shortForm stages output)) =
      Edge.read keys place (.map (Edge.longForm stages output)) := by
  have again : trimText (trimText output) = trimText output := by
    rw [trimText, trimText, String.toList_ofList, Text.trim_trim]
  calc Edge.read keys place (.text (Edge.shortForm stages output))
      = Edge.read keys place (.map (Edge.longForm stages (trimText output))) := by
        rw [Edge.read, Edge.ofShortForm?_shortForm words arrowless]
        rfl
    _ = Edge.read keys place (.map (Edge.longForm stages output)) := by
        rw [Edge.read_longForm, Edge.read_longForm, again]

/-- Names with an arrow, with a half of one at the end and with nothing but a half, in front of an output
that begins with the other half. -/
theorem Edge.read_shortForm_arrows :
    Edge.shortForm ["a->b", "c-", "-"] ">d " = "a->b c- - -> >d " ∧
      (∀ stage ∈ ["a->b", "c-", "-"], Text.IsWord stage.toList) ∧ ¬ arrow <:+: ">d ".toList ∧
      Edge.read [">d"] "tree['x'][0]" (.text (Edge.shortForm ["a->b", "c-", "-"] ">d ")) =
        Edge.read [">d"] "tree['x'][0]" (.map (Edge.longForm ["a->b", "c-", "-"] ">d ")) := by
  have words : ∀ stage ∈ ["a->b", "c-", "-"], Text.IsWord stage.toList := by decide
  have arrowless : ¬ arrow <:+: ">d ".toList := by decide
  exact ⟨by decide, words, arrowless, Edge.read_shortForm words arrowless [">d"] "tree['x'][0]"⟩

end Experiment

end Branchwork
