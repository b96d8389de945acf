import Branchwork.Pattern.Rename

/-!
# What a pattern matches

Which runs the wildcards of a pattern take depends on the search, which tries long runs first. Whether
there is a match at all does not: `Takes` says that a pattern takes the beginning of a text, each
wildcard any run without a line break, and the search finds a match exactly if there is one.

So a name that a pattern matches as a whole goes on to be matched at its beginning, whatever is put
behind it, although the runs may change then; and every pattern takes itself.

Main results:

* `matchFrom_isSome_iff` — the search finds a match if there is one.
* `leading?_append_of_matchesName`, `leading?_self_append` — keys that extend a name are matched.
-/

namespace Branchwork.Pattern

/-- A pattern takes the beginning of a text, and leaves the rest. -/
inductive Takes : List Char → List Char → List Char → Prop
  | done {s} : Takes [] s s
  | char {c ps s rest} : c ≠ wildcard → Takes ps s rest → Takes (c :: ps) (c :: s) rest
  | run {run ps s rest} : '\n' ∉ run → Takes ps s rest → Takes (wildcard :: ps) (run ++ s) rest

theorem takes_char_iff {c : Char} {ps s rest : List Char} (ordinary : c ≠ wildcard) :
    Takes (c :: ps) s rest ↔ ∃ s', s = c :: s' ∧ Takes ps s' rest := by
  constructor
  · intro takes
    cases takes with
    | char _ takes => exact ⟨_, rfl, takes⟩
    | run _ _ => exact absurd rfl ordinary
  · rintro ⟨s', rfl, takes⟩
    exact .char ordinary takes

theorem takes_run_iff {ps s rest : List Char} :
    Takes (wildcard :: ps) s rest ↔ ∃ run s', s = run ++ s' ∧ '\n' ∉ run ∧ Takes ps s' rest := by
  constructor
  · intro takes
    cases takes with
    | char ordinary _ => exact absurd rfl ordinary
    | run clear takes => exact ⟨_, _, rfl, clear, takes⟩
  · rintro ⟨run, s', rfl, clear, takes⟩
    exact .run clear takes

theorem longestRun_isSome_iff {next : List Char → Option Capture} {s : List Char} :
    (longestRun next s).isSome ↔
      ∃ run rest, s = run ++ rest ∧ '\n' ∉ run ∧ (next rest).isSome := by
  induction s with
  | nil =>
    rw [longestRun, Option.isSome_map]
    constructor
    · intro found
      exact ⟨[], [], rfl, List.not_mem_nil, found⟩
    · rintro ⟨run, rest, split, -, found⟩
      obtain ⟨rfl, rfl⟩ := List.append_eq_nil_iff.mp split.symm
      exact found
  | cons c s ih =>
    -- the run stops in front of the first letter, or takes it as well
    have here : (longestRun next (c :: s)).isSome ↔
        (c ≠ '\n' ∧ (longestRun next s).isSome) ∨ (next (c :: s)).isSome := by
      rw [longestRun]
      by_cases line : c = '\n'
      · simp [line]
      · rw [if_neg line]
        cases longestRun next s <;> simp [line]
    rw [here, ih]
    constructor
    · rintro (⟨line, run, rest, rfl, clear, found⟩ | found)
      · exact ⟨c :: run, rest, rfl, by simp [Ne.symm line, clear], found⟩
      · exact ⟨[], c :: s, rfl, List.not_mem_nil, found⟩
    · rintro ⟨run, rest, split, clear, found⟩
      cases run with
      | nil =>
        right
        rw [split]
        exact found
      | cons d run =>
        obtain ⟨rfl, rfl⟩ := List.cons.inj split
        obtain ⟨line, clear⟩ := not_or.mp fun mem => clear (List.mem_cons.mpr mem)
        exact .inl ⟨Ne.symm line, run, rest, rfl, clear, found⟩

theorem matchFrom_isSome_iff {accept : List Char → Bool} {pattern s : List Char} :
    (matchFrom accept pattern s).isSome ↔ ∃ rest, Takes pattern s rest ∧ accept rest = true := by
  induction pattern generalizing s with
  | nil =>
    rw [matchFrom]
    constructor
    · intro found
      by_cases fine : accept s = true
      · exact ⟨s, .done, fine⟩
      · rw [if_neg fine] at found
        cases found
    · rintro ⟨rest, takes, fine⟩
      cases takes
      rw [if_pos fine]
      rfl
  | cons p ps ih =>
    unfold matchFrom
    by_cases wild : p = wildcard
    · subst wild
      -- a wildcard takes any run that lets the rest match
      rw [if_pos rfl, Option.isSome_map, longestRun_isSome_iff]
      simp only [takes_run_iff, ih]
      constructor
      · rintro ⟨run, s', split, clear, rest, takes, fine⟩
        exact ⟨rest, ⟨run, s', split, clear, takes⟩, fine⟩
      · rintro ⟨rest, ⟨run, s', split, clear, takes⟩, fine⟩
        exact ⟨run, s', split, clear, rest, takes, fine⟩
    · rw [if_neg wild]
      simp only [takes_char_iff wild]
      cases s with
      | nil => simp
      | cons c s =>
        dsimp only
        by_cases same : p = c
        · subst same
          rw [if_pos rfl, ih]
          simp
        · rw [if_neg same]
          simp [Ne.symm same]

theorem Takes.append {pattern s rest : List Char} (takes : Takes pattern s rest)
    (more : List Char) : Takes pattern (s ++ more) (rest ++ more) := by
  induction takes with
  | done => exact .done
  | char ordinary _ ih => exact .char ordinary ih
  | run clear _ ih =>
    rw [List.append_assoc]
    exact .run clear ih

/-- What one pattern leaves another one goes on with. -/
theorem Takes.trans {first second s mid rest : List Char} (takes : Takes first s mid)
    (further : Takes second mid rest) : Takes (first ++ second) s rest := by
  induction takes with
  | done => exact further
  | char ordinary _ ih => exact .char ordinary (ih further)
  | run clear _ ih => exact .run clear (ih further)

/-- A wildcard takes the letter that it is written as. -/
theorem takes_self (pattern more : List Char) : Takes pattern (pattern ++ more) more := by
  induction pattern with
  | nil => exact .done
  | cons p ps ih =>
    by_cases wild : p = wildcard
    · subst wild
      -- a run of one letter: the wildcard itself
      have one : '\n' ∉ [wildcard] := by decide
      have taken := Takes.run one ih
      exact taken
    · exact .char wild ih

theorem leading?_isSome_iff {pattern s : List Char} :
    (leading? pattern s).isSome ↔ ∃ rest, Takes pattern s rest := by
  rw [leading?, matchFrom_isSome_iff]
  simp

/-- What extends a name that a pattern matches is matched at its beginning. -/
theorem leading?_append_of_matchesName {pattern name : String}
    (h : matchesName pattern name = true) (more : List Char) :
    (leading? pattern.toList (name.toList ++ more)).isSome := by
  rw [matchesName, captures?, Option.isSome_map, matchFrom_isSome_iff] at h
  obtain ⟨rest, takes, -⟩ := h
  exact leading?_isSome_iff.mpr ⟨_, takes.append more⟩

theorem leading?_self_append (pattern more : List Char) :
    (leading? pattern (pattern ++ more)).isSome :=
  leading?_isSome_iff.mpr ⟨_, takes_self pattern more⟩

end Branchwork.Pattern
