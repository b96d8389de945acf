import Branchwork.Proofs.Pattern
import Mathlib.Data.List.Infix
import Mathlib.Data.List.Lex

/-!
# Longest runs first

A pattern may take the beginning of a text in many ways. `Splits` tells them apart by the runs of the
wildcards; the lengths of the runs, compared in order, say which of two ways is tried first. The
search finds the way that comes first among all: its first run is longest, then its second, and so
on.

The search does not look for a long match, but it finds one: no other way to take the text gets
further than the one that is found. So the part that is left over is the part that the longest match
leaves, although the runs may differ.

Main results:

* `matchFrom_eq_some_iff` — the match that is found is the way with the longest runs.
* `matchFrom_reaches` — no other way gets further.
* `leading?_append` — what is put behind a text changes nothing, unless the pattern can take some of
  it.
-/

namespace Branchwork.Pattern

/-- A pattern takes the beginning of a text, each wildcard its run, and leaves the rest. -/
inductive Splits : List Char → List Char → List (List Char) → List Char → Prop
  | done {s} : Splits [] s [] s
  | char {c ps s runs rest} : c ≠ wildcard → Splits ps s runs rest →
      Splits (c :: ps) (c :: s) runs rest
  | run {run ps s runs rest} : '\n' ∉ run → Splits ps s runs rest →
      Splits (wildcard :: ps) (run ++ s) (run :: runs) rest

theorem takes_iff_splits {pattern s rest : List Char} :
    Takes pattern s rest ↔ ∃ runs, Splits pattern s runs rest := by
  constructor
  · intro takes
    induction takes with
    | done => exact ⟨[], .done⟩
    | char ordinary _ ih =>
      obtain ⟨runs, splits⟩ := ih
      exact ⟨runs, .char ordinary splits⟩
    | @run run _ _ _ clear _ ih =>
      obtain ⟨runs, splits⟩ := ih
      exact ⟨run :: runs, .run clear splits⟩
  · rintro ⟨runs, splits⟩
    induction splits with
    | done => exact .done
    | char ordinary _ ih => exact .char ordinary ih
    | run clear _ ih => exact .run clear ih

theorem Splits.takes {pattern s rest : List Char} {runs : List (List Char)}
    (splits : Splits pattern s runs rest) : Takes pattern s rest :=
  takes_iff_splits.mpr ⟨runs, splits⟩

theorem splits_char_iff {c : Char} {ps s rest : List Char} {runs : List (List Char)}
    (ordinary : c ≠ wildcard) :
    Splits (c :: ps) s runs rest ↔ ∃ s', s = c :: s' ∧ Splits ps s' runs rest := by
  constructor
  · intro splits
    cases splits with
    | char _ splits => exact ⟨_, rfl, splits⟩
    | run _ _ => exact absurd rfl ordinary
  · rintro ⟨s', rfl, splits⟩
    exact .char ordinary splits

theorem splits_run_iff {ps s rest : List Char} {runs : List (List Char)} :
    Splits (wildcard :: ps) s runs rest ↔ ∃ run more s', runs = run :: more ∧ s = run ++ s' ∧
      '\n' ∉ run ∧ Splits ps s' more rest := by
  constructor
  · intro splits
    cases splits with
    | char ordinary _ => exact absurd rfl ordinary
    | run clear splits => exact ⟨_, _, _, rfl, rfl, clear, splits⟩
  · rintro ⟨run, more, s', rfl, rfl, clear, splits⟩
    exact .run clear splits

/-! ## What lies behind the taken part -/

theorem Splits.append {pattern s rest : List Char} {runs : List (List Char)}
    (splits : Splits pattern s runs rest) (more : List Char) :
    Splits pattern (s ++ more) runs (rest ++ more) := by
  induction splits with
  | done => exact .done
  | char ordinary _ ih => exact .char ordinary ih
  | run clear _ ih =>
    rw [List.append_assoc]
    exact .run clear ih

/-- The part that is taken can be told from the rest, and is taken with the same runs alone. -/
theorem Splits.exists_taken {pattern s rest : List Char} {runs : List (List Char)}
    (splits : Splits pattern s runs rest) :
    ∃ taken, s = taken ++ rest ∧ Splits pattern taken runs [] := by
  induction splits with
  | done => exact ⟨[], rfl, .done⟩
  | @char c _ _ _ _ ordinary _ ih =>
    obtain ⟨taken, rfl, splits⟩ := ih
    exact ⟨c :: taken, rfl, .char ordinary splits⟩
  | @run run _ _ _ _ clear _ ih =>
    obtain ⟨taken, rfl, splits⟩ := ih
    exact ⟨run ++ taken, (List.append_assoc _ _ _).symm, .run clear splits⟩

theorem Takes.suffix {pattern s rest : List Char} (takes : Takes pattern s rest) : rest <:+ s := by
  obtain ⟨runs, splits⟩ := takes_iff_splits.mp takes
  obtain ⟨taken, rfl, -⟩ := splits.exists_taken
  exact List.suffix_append taken rest

/-! ## The order of the search -/

/-- A way to take a text is known by the lengths of its runs. -/
theorem Splits.unique {pattern s rest rest' : List Char} {runs runs' : List (List Char)}
    (splits : Splits pattern s runs rest) (splits' : Splits pattern s runs' rest')
    (lengths : runs.map List.length = runs'.map List.length) : runs = runs' ∧ rest = rest' := by
  induction splits generalizing runs' with
  | done =>
    cases splits'
    exact ⟨rfl, rfl⟩
  | char ordinary _ ih =>
    obtain ⟨s', same, splits'⟩ := (splits_char_iff ordinary).mp splits'
    cases same
    exact ih splits' lengths
  | run clear _ ih =>
    obtain ⟨run', more, s', rfl, split, -, splits'⟩ := splits_run_iff.mp splits'
    simp only [List.map_cons, List.cons.injEq] at lengths
    -- runs of one length at one place are the same run
    obtain ⟨rfl, rfl⟩ := List.append_inj split lengths.1
    obtain ⟨rfl, rfl⟩ := ih splits' lengths.2
    exact ⟨rfl, rfl⟩

/-- The run that is found lets the rest match, and no longer one does. -/
theorem longestRun_eq_some {next : List Char → Option Capture} {s run : List Char} {found : Capture}
    (result : longestRun next s = some (run, found)) :
    (∃ rest, s = run ++ rest ∧ '\n' ∉ run ∧ next rest = some found) ∧
      ∀ run' rest', s = run' ++ rest' → '\n' ∉ run' → (next rest').isSome →
        run'.length ≤ run.length := by
  induction s generalizing run with
  | nil =>
    rw [longestRun, Option.map_eq_some_iff] at result
    obtain ⟨found', here, same⟩ := result
    cases same
    refine ⟨⟨[], rfl, List.not_mem_nil, here⟩, fun run' rest' split _ _ => ?_⟩
    simp [(List.append_eq_nil_iff.mp split.symm).1]
  | cons c s ih =>
    rw [longestRun] at result
    cases longer : (if c = '\n' then none else longestRun next s) with
    | some pair =>
      -- a run that goes on beyond the first letter is preferred
      obtain ⟨run₁, found₁⟩ := pair
      rw [longer] at result
      cases result
      have line : c ≠ '\n' := by
        rintro rfl
        simp at longer
      rw [if_neg line] at longer
      obtain ⟨⟨rest, split, clear, here⟩, longest⟩ := ih longer
      refine ⟨⟨rest, by rw [split, List.cons_append], ?_, here⟩, fun run' rest' split' clear' ok => ?_⟩
      · simp [Ne.symm line, clear]
      · cases run' with
        | nil => simp
        | cons d run' =>
          obtain ⟨rfl, below⟩ := List.cons.inj split'
          have le := longest run' rest' below (fun mem => clear' (List.mem_cons_of_mem _ mem)) ok
          simpa using le
    | none =>
      rw [longer, Option.map_eq_some_iff] at result
      -- only the empty run lets the rest match
      obtain ⟨found', here, same⟩ := result
      cases same
      refine ⟨⟨c :: s, rfl, List.not_mem_nil, here⟩, fun run' rest' split' clear' ok => ?_⟩
      cases run' with
      | nil => exact Nat.le_refl _
      | cons d run' =>
        -- a run that takes the first letter would have been found
        obtain ⟨rfl, below⟩ := List.cons.inj split'
        obtain ⟨line, clear⟩ := not_or.mp fun mem => clear' (List.mem_cons.mpr mem)
        rw [if_neg (Ne.symm line)] at longer
        have some_run := longestRun_isSome_iff.mpr ⟨run', rest', below, clear, ok⟩
        simp [longer] at some_run

/-- At a wildcard the search decides for a run after which the others match, and for the longest. -/
theorem matchFrom_run {accept : List Char → Bool} {ps s : List Char} {found : Capture}
    (result : matchFrom accept (wildcard :: ps) s = some found) :
    ∃ run rest more, found = ⟨run :: more.runs, more.rest⟩ ∧
      (s = run ++ rest ∧ '\n' ∉ run ∧ matchFrom accept ps rest = some more) ∧
      ∀ run' rest', s = run' ++ rest' → '\n' ∉ run' → (matchFrom accept ps rest').isSome →
        run'.length ≤ run.length := by
  unfold matchFrom at result
  rw [if_pos rfl, Option.map_eq_some_iff] at result
  obtain ⟨⟨run, more⟩, decided, rfl⟩ := result
  obtain ⟨⟨rest, split, clear, here⟩, longest⟩ := longestRun_eq_some decided
  exact ⟨run, rest, more, rfl, ⟨split, clear, here⟩, longest⟩

/-- Any other letter has to be there. -/
theorem matchFrom_char {accept : List Char → Bool} {p : Char} {ps s : List Char} {found : Capture}
    (ordinary : p ≠ wildcard) (result : matchFrom accept (p :: ps) s = some found) :
    ∃ s', s = p :: s' ∧ matchFrom accept ps s' = some found := by
  unfold matchFrom at result
  rw [if_neg ordinary] at result
  cases s with
  | nil => cases result
  | cons c s =>
    dsimp only at result
    by_cases same : p = c
    · rw [if_pos same] at result
      exact ⟨s, by rw [same], result⟩
    · rw [if_neg same] at result
      cases result

theorem matchFrom_splits {accept : List Char → Bool} {pattern s : List Char} {found : Capture}
    (result : matchFrom accept pattern s = some found) :
    Splits pattern s found.runs found.rest ∧ accept found.rest = true := by
  induction pattern generalizing s found with
  | nil =>
    rw [matchFrom] at result
    by_cases fine : accept s = true
    · rw [if_pos fine] at result
      cases result
      exact ⟨.done, fine⟩
    · rw [if_neg fine] at result
      cases result
  | cons p ps ih =>
    by_cases wild : p = wildcard
    · subst wild
      obtain ⟨run, rest, more, rfl, ⟨rfl, clear, here⟩, -⟩ := matchFrom_run result
      obtain ⟨splits, fine⟩ := ih here
      exact ⟨.run clear splits, fine⟩
    · obtain ⟨s', rfl, here⟩ := matchFrom_char wild result
      obtain ⟨splits, fine⟩ := ih here
      exact ⟨.char wild splits, fine⟩

/-- No way to take the text comes before the one that is found. -/
theorem matchFrom_longest {accept : List Char → Bool} {pattern s : List Char} {found : Capture}
    (result : matchFrom accept pattern s = some found) {runs : List (List Char)} {rest : List Char}
    (splits : Splits pattern s runs rest) (fine : accept rest = true) :
    runs.map List.length ≤ found.runs.map List.length := by
  induction pattern generalizing s found runs with
  | nil =>
    cases splits
    exact not_lt.mp (List.not_lt_nil _)
  | cons p ps ih =>
    by_cases wild : p = wildcard
    · subst wild
      obtain ⟨run, rest₁, more, rfl, ⟨split₁, -, here⟩, longest⟩ := matchFrom_run result
      obtain ⟨run', runs, s', rfl, split, clear, splits⟩ := splits_run_iff.mp splits
      have le : run'.length ≤ run.length :=
        longest run' s' split clear (matchFrom_isSome_iff.mpr ⟨rest, splits.takes, fine⟩)
      rcases Nat.lt_or_eq_of_le le with shorter | same
      · exact le_of_lt (List.Lex.rel shorter)
      · -- the two runs are one, so the rest of the pattern decides
        obtain ⟨rfl, rfl⟩ := List.append_inj (split.symm.trans split₁) same
        exact List.cons_le_cons _ (ih here splits)
    · obtain ⟨s', rfl, below⟩ := (splits_char_iff wild).mp splits
      obtain ⟨s'', same, here⟩ := matchFrom_char wild result
      cases same
      exact ih here below

/-- A match is the way to take the text whose first run is longest, then its second, and so on, among
those that leave an accepted rest. -/
theorem matchFrom_eq_some_iff {accept : List Char → Bool} {pattern s : List Char}
    {runs : List (List Char)} {rest : List Char} :
    matchFrom accept pattern s = some ⟨runs, rest⟩ ↔
      Splits pattern s runs rest ∧ accept rest = true ∧
        ∀ runs' rest', Splits pattern s runs' rest' → accept rest' = true →
          runs'.map List.length ≤ runs.map List.length := by
  constructor
  · intro result
    obtain ⟨splits, fine⟩ := matchFrom_splits result
    exact ⟨splits, fine, fun _ _ splits' fine' => matchFrom_longest result splits' fine'⟩
  · rintro ⟨splits, fine, longest⟩
    obtain ⟨found, result⟩ :=
      Option.isSome_iff_exists.mp (matchFrom_isSome_iff.mpr ⟨rest, splits.takes, fine⟩)
    obtain ⟨splits', fine'⟩ := matchFrom_splits result
    -- each of the two ways comes before the other one
    have lengths : runs.map List.length = found.runs.map List.length :=
      le_antisymm (matchFrom_longest result splits fine) (longest _ _ splits' fine')
    obtain ⟨rfl, rfl⟩ := splits.unique splits' lengths
    exact result

/-! ## How far a match gets -/

/-- Started further on in a text, the search gets at least as far as any way to take the whole
text. -/
theorem matchFrom_reaches {pattern s t rest : List Char} {found : Capture} (later : t <:+ s)
    (result : matchFrom (fun _ => true) pattern t = some found) (takes : Takes pattern s rest) :
    found.rest <:+ rest := by
  induction pattern generalizing s t found with
  | nil =>
    cases takes
    cases result
    exact later
  | cons p ps ih =>
    by_cases wild : p = wildcard
    · subst wild
      obtain ⟨run, t', more, rfl, ⟨split, clear, here⟩, longest⟩ := matchFrom_run result
      obtain ⟨run', s', split', clear', below⟩ := takes_run_iff.mp takes
      have after : t' <:+ t := split ▸ List.suffix_append run t'
      have after' : s' <:+ s := split' ▸ List.suffix_append run' s'
      show more.rest <:+ rest
      refine ih ?_ here below
      -- the other way is to go on behind the run of the search, or in front of its end
      rcases List.suffix_or_suffix_of_suffix later after' with behind | front
      · exact after.trans behind
      · -- the search could let its run end where the other one ends, so its own is no shorter
        obtain ⟨word, rfl⟩ := front
        obtain ⟨skipped, rfl⟩ := later
        have taken : skipped ++ word = run' := by
          rw [← List.append_assoc] at split'
          exact List.append_cancel_right split'
        have word_clear : '\n' ∉ word := fun mem =>
          clear' (taken ▸ List.mem_append_right skipped mem)
        have le : word.length ≤ run.length :=
          longest word s' rfl word_clear (matchFrom_isSome_iff.mpr ⟨rest, below, rfl⟩)
        have lengths : word.length + s'.length = run.length + t'.length := by
          simpa using congrArg List.length split
        have shorter : t'.length ≤ s'.length := by omega
        exact List.suffix_of_suffix_length_le after (List.suffix_append word s') shorter
    · obtain ⟨s', rfl, below⟩ := (takes_char_iff wild).mp takes
      obtain ⟨t', rfl, here⟩ := matchFrom_char wild result
      refine ih ?_ here below
      rcases List.suffix_cons_iff.mp later with whole | within
      · cases whole
        exact List.suffix_refl _
      · exact (List.suffix_cons p t').trans within

/-- What is put behind a text changes nothing about its match, if the pattern takes nothing that ends
behind the text. -/
theorem leading?_append {pattern s more : List Char} {found : Capture}
    (result : leading? pattern s = some found)
    (ends : ∀ taken, taken <+: s ++ more → Takes pattern taken [] → taken.length ≤ s.length) :
    leading? pattern (s ++ more) = some { found with rest := found.rest ++ more } := by
  obtain ⟨splits, -⟩ := matchFrom_splits result
  refine matchFrom_eq_some_iff.mpr ⟨splits.append more, rfl, fun runs' rest' splits' _ => ?_⟩
  -- another way to take the longer text is a way to take the text itself
  obtain ⟨taken, split, alone⟩ := splits'.exists_taken
  have inside : taken <+: s := by
    refine List.prefix_of_prefix_length_le ⟨rest', split.symm⟩ (List.prefix_append s more) ?_
    exact ends taken ⟨rest', split.symm⟩ alone.takes
  obtain ⟨behind, rfl⟩ := inside
  exact matchFrom_longest result (alone.append behind) rfl

end Branchwork.Pattern
