import Branchwork.Proofs.Pattern.Greedy

/-!
# The language of a pattern

The wildcards of a pattern cut it into literal pieces. A pattern takes the beginning of a text that is
the pieces in order, with a run without a line break between each two neighbours. Every character of a
piece stands for itself, whatever else it may mean elsewhere.

A name is matched if it is such a text as a whole, or with a line break behind it. There may be many
ways to spell one name; the search decides for the one whose first run is longest, then its second,
and so on.

Main results:

* `splits_iff_weave` — to take the beginning of a text is to spell it by pieces and runs.
* `captures?_longest` — which names are matched, and with which runs.
-/

namespace Branchwork.Pattern

/-- The literal pieces of a pattern: what stands between its wildcards. -/
def pieces (pattern : List Char) : List (List Char) := pattern.splitOn wildcard

/-- Pieces with a run between each two neighbours. -/
def weave : List (List Char) → List (List Char) → List Char
  | [], _ => []
  | piece :: _, [] => piece
  | piece :: pieces, run :: runs => piece ++ run ++ weave pieces runs

theorem pieces_ne_nil (pattern : List Char) : pieces pattern ≠ [] := List.splitOn_ne_nil _ _

theorem pieces_wildcard (ps : List Char) : pieces (wildcard :: ps) = [] :: pieces ps := by
  rw [pieces, List.splitOn_cons_eq_if_modifyHead, if_pos (beq_self_eq_true _)]
  rfl

/-- A literal character belongs to the first piece of what follows. -/
theorem pieces_char {c : Char} (ordinary : c ≠ wildcard) (ps : List Char) :
    ∃ piece more, pieces ps = piece :: more ∧ pieces (c :: ps) = (c :: piece) :: more := by
  obtain ⟨piece, more, split⟩ := List.exists_cons_of_ne_nil (pieces_ne_nil ps)
  refine ⟨piece, more, split, ?_⟩
  rw [pieces, List.splitOn_cons_eq_if_modifyHead, if_neg (by simpa using ordinary)]
  exact congrArg (List.modifyHead (c :: ·)) split

theorem weave_cons_char (c : Char) (piece : List Char) (more runs : List (List Char)) :
    weave ((c :: piece) :: more) runs = c :: weave (piece :: more) runs := by
  cases runs <;> rfl

/-- A pattern takes the beginning of a text exactly if that is its pieces with a run without a line
break for each wildcard. -/
theorem splits_iff_weave {pattern s rest : List Char} {runs : List (List Char)} :
    Splits pattern s runs rest ↔ runs.length + 1 = (pieces pattern).length ∧
      (∀ run ∈ runs, '\n' ∉ run) ∧ s = weave (pieces pattern) runs ++ rest := by
  induction pattern generalizing s runs with
  | nil =>
    constructor
    · intro splits
      cases splits
      exact ⟨rfl, by simp, rfl⟩
    · rintro ⟨count, -, rfl⟩
      obtain rfl : runs = [] := List.length_eq_zero_iff.mp (Nat.succ.inj count)
      exact .done
  | cons p ps ih =>
    by_cases wild : p = wildcard
    · subst wild
      -- a wildcard ends the first piece, and its run comes in front of the other ones
      rw [pieces_wildcard, splits_run_iff]
      constructor
      · rintro ⟨run, more, s', rfl, rfl, clear, splits⟩
        obtain ⟨count, clears, rfl⟩ := ih.mp splits
        refine ⟨congrArg (· + 1) count, List.forall_mem_cons.mpr ⟨clear, clears⟩, ?_⟩
        simp [weave]
      · rintro ⟨count, clears, rfl⟩
        cases runs with
        | nil => exact absurd (List.length_eq_zero_iff.mp (Nat.succ.inj count.symm)) (pieces_ne_nil ps)
        | cons run more =>
          obtain ⟨clear, clears⟩ := List.forall_mem_cons.mp clears
          refine ⟨run, more, weave (pieces ps) more ++ rest, rfl, by simp [weave], clear, ?_⟩
          exact ih.mpr ⟨Nat.succ.inj count, clears, rfl⟩
    · -- the character is the first one of the first piece, and of the text
      obtain ⟨piece, more, split, whole⟩ := pieces_char wild ps
      rw [splits_char_iff wild, whole, weave_cons_char, ← split]
      have count : ((p :: piece) :: more).length = (pieces ps).length := by rw [split]; rfl
      rw [count]
      constructor
      · rintro ⟨s', rfl, splits⟩
        obtain ⟨count, clears, rfl⟩ := ih.mp splits
        exact ⟨count, clears, rfl⟩
      · rintro ⟨count, clears, rfl⟩
        exact ⟨_, rfl, ih.mpr ⟨count, clears, rfl⟩⟩

/-! ## Names -/

/-- A text is the pieces of a pattern, with a run without a line break for each wildcard. -/
structure Spells (pattern : String) (runs : List String) (text : String) : Prop where
  count : runs.length + 1 = (pieces pattern.toList).length
  clear : ∀ run ∈ runs, '\n' ∉ run.toList
  whole : text.toList = weave (pieces pattern.toList) (runs.map String.toList)

/-- A way to match a name: it is spelt, or what it has in front of a line break at its end is. -/
def Decomposes (pattern : String) (runs : List String) (name : String) : Prop :=
  Spells pattern runs name ∨ ∃ front, name = front ++ "\n" ∧ Spells pattern runs front

theorem splits_iff_spells {pattern text : String} {runs : List String} {rest : List Char} :
    Splits pattern.toList (text.toList ++ rest) (runs.map String.toList) rest ↔
      Spells pattern runs text := by
  rw [splits_iff_weave, List.length_map, List.append_left_inj]
  constructor
  · rintro ⟨count, clear, whole⟩
    exact ⟨count, fun run mem => clear _ (List.mem_map_of_mem mem), whole⟩
  · rintro ⟨count, clear, whole⟩
    exact ⟨count, List.forall_mem_map.mpr clear, whole⟩

theorem decomposes_iff_splits {pattern name : String} {runs : List String} :
    Decomposes pattern runs name ↔ ∃ rest, isNameEnd rest = true ∧
      Splits pattern.toList name.toList (runs.map String.toList) rest := by
  simp only [isNameEnd, Bool.or_eq_true, decide_eq_true_eq]
  constructor
  · rintro (spells | ⟨front, rfl, spells⟩)
    · have splits : Splits pattern.toList (name.toList ++ []) (runs.map String.toList) [] :=
        splits_iff_spells.mpr spells
      exact ⟨[], .inl rfl, by rwa [List.append_nil] at splits⟩
    · refine ⟨['\n'], .inr rfl, ?_⟩
      rw [String.toList_append]
      exact splits_iff_spells.mpr spells
  · rintro ⟨rest, rfl | rfl, splits⟩
    · rw [← List.append_nil name.toList] at splits
      exact .inl (splits_iff_spells.mp splits)
    · obtain ⟨front, whole, -⟩ := splits.exists_taken
      have fronted : (String.ofList front).toList = front := String.toList_ofList
      refine .inr ⟨String.ofList front, String.toList_injective ?_, ?_⟩
      · rw [whole, String.toList_append, fronted]
        rfl
      · rw [whole, ← fronted] at splits
        exact splits_iff_spells.mp splits

theorem captures?_eq_some_iff {pattern name : String} {runs : List String} :
    captures? pattern name = some runs ↔ ∃ rest,
      matchFrom isNameEnd pattern.toList name.toList = some ⟨runs.map String.toList, rest⟩ := by
  rw [captures?, Option.map_eq_some_iff]
  constructor
  · rintro ⟨⟨taken, rest⟩, result, rfl⟩
    exact ⟨rest, by simpa [Function.comp_def] using result⟩
  · rintro ⟨rest, result⟩
    exact ⟨_, result, by simp [Function.comp_def]⟩

/-- A pattern matches the names that its pieces spell with runs without line breaks, a line break at
the end apart, and no others. The runs that are taken are those of the way whose first run is longest,
then its second, and so on: their lengths, compared in order, are the greatest. -/
theorem captures?_longest (pattern name : String) :
    (matchesName pattern name = true ↔ ∃ runs, Decomposes pattern runs name) ∧
      ∀ runs, captures? pattern name = some runs ↔ Decomposes pattern runs name ∧
        ∀ other, Decomposes pattern other name →
          other.map String.length ≤ runs.map String.length := by
  -- runs are counted as texts here, and as lists of characters where they are found
  have lengths (runs : List String) :
      (runs.map String.toList).map List.length = runs.map String.length := by
    simp [Function.comp_def, String.length_toList]
  have texts (runs : List (List Char)) : (runs.map String.ofList).map String.toList = runs := by
    simp [Function.comp_def]
  constructor
  · rw [matchesName, captures?, Option.isSome_map, matchFrom_isSome_iff]
    simp only [takes_iff_splits, decomposes_iff_splits]
    constructor
    · rintro ⟨rest, ⟨runs, splits⟩, fine⟩
      exact ⟨runs.map String.ofList, rest, fine, by rwa [texts]⟩
    · rintro ⟨runs, rest, fine, splits⟩
      exact ⟨rest, ⟨_, splits⟩, fine⟩
  · intro runs
    simp only [captures?_eq_some_iff, matchFrom_eq_some_iff, decomposes_iff_splits]
    constructor
    · rintro ⟨rest, splits, fine, longest⟩
      refine ⟨⟨rest, fine, splits⟩, ?_⟩
      rintro other ⟨rest', fine', splits'⟩
      have le := longest _ rest' splits' fine'
      rwa [lengths, lengths] at le
    · rintro ⟨⟨rest, fine, splits⟩, longest⟩
      refine ⟨rest, splits, fine, fun runs' rest' splits' fine' => ?_⟩
      have le := longest (runs'.map String.ofList) ⟨rest', fine', by rwa [texts]⟩
      rwa [← lengths, ← lengths, texts] at le

/-- A point is a point, and of two ways to spell a name the one with the longer first run counts. -/
example : matchesName "a.c" "abc" = false ∧
    captures? "*-*.json" "a-b-c.json\n" = some ["a-b", "c"] := by decide

end Branchwork.Pattern
