import Branchwork.Proofs.Pattern.Count
import Branchwork.Proofs.Pattern.Language
import Branchwork.Proofs.Pattern.Split

/-!
# A pattern as its own target

The runs that a pattern takes fill the wildcards of a target one after the other. A target with as many
wildcards as there are runs is filled by weaving its pieces with them. The pattern itself is such a
target, and its pieces with the runs are the text that was taken, so with what is left behind it the
whole key is back.

The other way round, whatever the pattern is filled with, as long as it has no line break, the pattern
takes again. Slugs have none. So a key that the pattern does not take is given another name.

Main results:

* `fill_eq_weave` — what a target with the right number of wildcards is filled to.
* `outputName_own` — the keys that keep their names when the pattern is the target.
-/

namespace Branchwork.Pattern

/-- A target with one wildcard for each run becomes its pieces with the runs between them. -/
theorem fill_eq_weave {target : List Char} {runs : List (List Char)}
    (count : runs.length + 1 = (pieces target).length) (last : List Char) :
    fill last runs target = weave (pieces target) runs := by
  induction target generalizing last runs with
  | nil =>
    obtain rfl : runs = [] := List.length_eq_zero_iff.mp (Nat.succ.inj count)
    rfl
  | cons c target ih =>
    by_cases wild : c = wildcard
    · subst wild
      rw [pieces_wildcard] at count ⊢
      cases runs with
      | nil => exact absurd (List.length_eq_zero_iff.mp (Nat.succ.inj count.symm)) (pieces_ne_nil target)
      | cons run more =>
        rw [fill, if_pos rfl, weave, List.nil_append]
        exact congrArg (run ++ ·) (ih (Nat.succ.inj count) run)
    · obtain ⟨piece, more, split, whole⟩ := pieces_char wild target
      have count : runs.length + 1 = (pieces target).length := by
        rw [count, whole, split]
        rfl
      unfold fill
      rw [if_neg wild, ih count, whole, weave_cons_char, split]

/-- A pattern that is filled with the runs that it takes is what it takes. -/
theorem Splits.refill {pattern s rest : List Char} {runs : List (List Char)}
    (splits : Splits pattern s runs rest) (last : List Char) :
    fill last runs pattern ++ rest = s := by
  obtain ⟨count, -, whole⟩ := splits_iff_weave.mp splits
  rw [fill_eq_weave count, whole]

/-- A pattern that is filled with texts without line breaks takes what it is filled to. -/
theorem takes_fill {last : List Char} {runs : List (List Char)} (clear_last : '\n' ∉ last)
    (clear : ∀ run ∈ runs, '\n' ∉ run) (pattern rest : List Char) :
    Takes pattern (fill last runs pattern ++ rest) rest := by
  induction pattern generalizing last runs with
  | nil => exact .done
  | cons c pattern ih =>
    unfold fill
    by_cases wild : c = wildcard
    · subst wild
      rw [if_pos rfl]
      cases runs with
      | nil =>
        rw [List.append_assoc]
        exact .run clear_last (ih clear_last clear)
      | cons run more =>
        have here := clear run List.mem_cons_self
        rw [List.append_assoc]
        exact .run here (ih here fun other mem => clear other (List.mem_cons_of_mem _ mem))
    · rw [if_neg wild]
      exact .char wild (ih clear_last clear)

/-- A pattern without runs has no wildcards. -/
theorem Splits.literal {pattern s rest : List Char} (splits : Splits pattern s [] rest) :
    wildcard ∉ pattern := by
  generalize none : ([] : List (List Char)) = runs at splits
  induction splits with
  | done => exact List.not_mem_nil
  | char ordinary _ ih => exact fun mem => (List.mem_cons.mp mem).elim (ordinary ·.symm) (ih none)
  | run _ _ => cases none

/-- A key that is taken is put together again. -/
theorem renameKey_own_of_takes {pattern key rest : List Char} (takes : Takes pattern key rest) :
    renameKey pattern key pattern = key := by
  obtain ⟨⟨runs, left⟩, result⟩ := Option.isSome_iff_exists.mp (leading?_isSome_iff.mpr ⟨rest, takes⟩)
  have splits : Splits pattern key runs left := (matchFrom_splits result).1
  unfold renameKey offered
  rw [result]
  cases runs with
  | cons run more => exact splits.refill []
  | nil =>
    -- no wildcard asks for the slug that is offered
    have refilled := splits.refill []
    rw [fill_literal splits.literal] at refilled
    dsimp only
    rw [fill_literal splits.literal, refilled]

/-- What the pattern makes of a key that it does not take is no such key. -/
theorem takes_renameKey_own (pattern key : List Char) (untaken : leading? pattern key = none) :
    ∃ rest, Takes pattern (renameKey pattern key pattern) rest := by
  unfold renameKey offered
  rw [untaken]
  refine ⟨[], takes_fill List.not_mem_nil (fun run mem line => ?_) pattern []⟩
  rw [List.mem_singleton.mp mem] at line
  exact absurd (isSlugChar_of_mem_slugOf _ line) (by decide)

theorem takes_iff_prefix_matches {pattern key : String} :
    (∃ rest, Takes pattern.toList key.toList rest) ↔
      ∃ front, front.toList <+: key.toList ∧ matchesName pattern front = true := by
  constructor
  · rintro ⟨rest, takes⟩
    obtain ⟨runs, splits⟩ := takes_iff_splits.mp takes
    obtain ⟨taken, whole, splits⟩ := splits.exists_taken
    refine ⟨String.ofList taken, ?_, ?_⟩
    · rw [String.toList_ofList, whole]
      exact List.prefix_append taken rest
    · rw [matchesName, captures?, Option.isSome_map, matchFrom_isSome_iff, String.toList_ofList]
      exact ⟨[], splits.takes, rfl⟩
  · rintro ⟨front, ⟨more, whole⟩, matched⟩
    rw [← whole]
    exact leading?_isSome_iff.mp (leading?_append_of_matchesName matched more)

/-- Renaming to the pattern itself gives a key back exactly if the pattern matches a beginning of the
key: a name that it matches as a whole, or a key that is split from one. -/
theorem outputName_own (pattern key : String) :
    outputName pattern key pattern = key ↔
      ∃ front, front.toList <+: key.toList ∧ matchesName pattern front = true := by
  have lists : outputName pattern key pattern = key ↔
      renameKey pattern.toList key.toList pattern.toList = key.toList := by
    rw [← String.toList_inj, outputName, String.toList_ofList]
  rw [lists, ← takes_iff_prefix_matches]
  constructor
  · intro same
    cases untaken : leading? pattern.toList key.toList with
    | some found => exact leading?_isSome_iff.mp (by rw [untaken]; rfl)
    | none =>
      have taken := takes_renameKey_own pattern.toList key.toList untaken
      rwa [same] at taken
  · rintro ⟨rest, takes⟩
    exact renameKey_own_of_takes takes

/-- Two wildcards side by side and one at the end, for a key with a line break. -/
example : outputName "a**-*" "ab-c\nd" "a**-*" = "ab-c\nd" ∧
    outputName "a**-*" "b\n" "a**-*" ≠ "b\n" := by decide +kernel

end Branchwork.Pattern
