import Branchwork.Proofs.Pattern.Greedy

/-!
# Characters that wildcards may take

A character that stands for itself is taken as often as the pattern has it, and the runs of the
wildcards and the rest take all the others. So a name that does not have the character more often than
the pattern leaves none of it for the runs, however the search decides. An output name then has it as
often as its target, since a slug is made of characters that are safe in a file name.

Main results:

* `Splits.count` — how often a text has a character that its pattern has.
* `offered_clear`, `count_renameKey` — what a short name offers to a target, and what the target
  makes of it.
-/

namespace Branchwork.Pattern

variable {d : Char}

theorem Splits.count {pattern s rest : List Char} {runs : List (List Char)}
    (splits : Splits pattern s runs rest) (ordinary : d ≠ wildcard) :
    s.count d = pattern.count d + runs.flatten.count d + rest.count d := by
  induction splits with
  | done => simp
  | char _ _ ih =>
    rw [List.count_cons, List.count_cons, ih]
    omega
  | run _ _ ih =>
    rw [List.count_append, List.count_cons_of_ne (Ne.symm ordinary), ih, List.flatten_cons,
      List.count_append]
    omega

/-- A text that has a character at most as often as its pattern has it nowhere else. -/
theorem Splits.clear {pattern s rest : List Char} {runs : List (List Char)}
    (splits : Splits pattern s runs rest) (ordinary : d ≠ wildcard)
    (few : s.count d ≤ pattern.count d) : (∀ run ∈ runs, d ∉ run) ∧ d ∉ rest := by
  have all := splits.count ordinary
  have clear_runs : d ∉ runs.flatten := List.count_eq_zero.mp (by omega)
  have clear_rest : d ∉ rest := List.count_eq_zero.mp (by omega)
  exact ⟨fun run mem here => clear_runs (List.mem_flatten_of_mem mem here), clear_rest⟩

/-! ## Slugs -/

theorem isSlugChar_of_mem_squeeze {inRun : Bool} {s : List Char} :
    ∀ c ∈ squeeze inRun s, isSlugChar c = true := by
  induction s generalizing inRun with
  | nil => simp [squeeze]
  | cons c rest ih =>
    intro x mem
    rw [squeeze] at mem
    split at mem
    · rename_i safe
      rcases List.mem_cons.mp mem with rfl | mem
      · exact safe
      · exact ih x mem
    · split at mem
      · exact ih x mem
      · rcases List.mem_cons.mp mem with rfl | mem
        · decide
        · exact ih x mem

/-- A slug is made of the characters that a slug keeps. -/
theorem isSlugChar_of_mem_slugOf {name : List Char} : ∀ c ∈ slugOf name, isSlugChar c = true := by
  intro c mem
  unfold slugOf at mem
  split at mem
  · have kept : "output".toList.all isSlugChar = true := by decide +kernel
    exact List.all_eq_true.mp kept c mem
  · have within : c ∈ dropUnderscores (squeeze false ((afterScheme? name).getD name)) := mem
    unfold dropUnderscores at within
    -- what is dropped at the ends takes nothing from the rest
    rw [List.mem_reverse] at within
    have within := (List.dropWhile_suffix _).subset within
    rw [List.mem_reverse] at within
    exact isSlugChar_of_mem_squeeze c ((List.dropWhile_suffix _).subset within)

/-! ## Targets -/

theorem count_fill {last : List Char} {runs : List (List Char)} (clear_last : d ∉ last)
    (clear : ∀ run ∈ runs, d ∉ run) (ordinary : d ≠ wildcard) (target : List Char) :
    (fill last runs target).count d = target.count d := by
  induction target generalizing last runs with
  | nil => rfl
  | cons c target ih =>
    unfold fill
    by_cases wild : c = wildcard
    · subst wild
      rw [if_pos rfl, List.count_cons_of_ne (Ne.symm ordinary)]
      cases runs with
      | nil =>
        dsimp only
        rw [List.count_append, ih clear_last clear, List.count_eq_zero.mpr clear_last, Nat.zero_add]
      | cons run more =>
        have here := clear run List.mem_cons_self
        dsimp only
        rw [List.count_append, ih here fun other mem => clear other (List.mem_cons_of_mem _ mem),
          List.count_eq_zero.mpr here, Nat.zero_add]
    · rw [if_neg wild, List.count_cons, List.count_cons, ih clear_last clear]

section

variable {pattern key : List Char} (ordinary : d ≠ wildcard) (unkept : isSlugChar d = false)
  (taken : (leading? pattern key).isSome) (few : key.count d ≤ pattern.count d)
include ordinary unkept taken few

/-- A key that has a character at most as often as its pattern offers nothing with it. -/
theorem offered_clear :
    (∀ run ∈ (offered pattern key).1, d ∉ run) ∧ d ∉ (offered pattern key).2 := by
  obtain ⟨⟨runs, rest⟩, result⟩ := Option.isSome_iff_exists.mp taken
  obtain ⟨clear, clear_rest⟩ := (matchFrom_splits result).1.clear ordinary few
  rw [offered, result]
  cases runs with
  | nil =>
    refine ⟨fun run mem here => ?_, clear_rest⟩
    rw [List.mem_singleton.mp mem] at here
    rw [isSlugChar_of_mem_slugOf d here] at unkept
    cases unkept
  | cons run more => exact ⟨clear, clear_rest⟩

theorem count_renameKey (target : List Char) :
    (renameKey pattern key target).count d = target.count d := by
  obtain ⟨clear, clear_rest⟩ := offered_clear ordinary unkept taken few
  unfold renameKey
  dsimp only
  rw [List.count_append, count_fill List.not_mem_nil clear ordinary,
    List.count_eq_zero.mpr clear_rest, Nat.add_zero]

end

end Branchwork.Pattern
