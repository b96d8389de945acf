import Branchwork.Pattern.Rename
import Branchwork.Proofs.Pattern.Greedy

/-!
# Output names of split keys

A stage that splits a value puts the key of each part behind the name of the value, with a dot
between them. The output name of a part is the output name of the whole with the same ending, as long
as the pattern of the input stops at the name. A pattern that reaches into the part takes some of its
key as well, and what it takes is lost for a target without wildcards: then parts of one value may
get one output name.

Main results:

* `outputName_split` — renaming and splitting commute where the pattern stops at the name.
* `outputName_parts` — which parts of a value get different output names.
-/

namespace Branchwork.Pattern

/-- A pattern reaches into the key of a part: there is a beginning of the split key that ends behind
the name and is the pattern with a run for each wildcard. -/
def ReachesInto (pattern name part : String) : Prop :=
  ∃ taken, taken <+: (name ++ "." ++ part).toList ∧ name.toList.length < taken.length ∧
    Takes pattern.toList taken []

/-- What a key has behind the longest beginning that a pattern takes. -/
structure Leaves (pattern key : String) (rest : List Char) : Prop where
  takes : Takes pattern.toList key.toList rest
  shortest : ∀ rest', Takes pattern.toList key.toList rest' → rest.length ≤ rest'.length

theorem takes_all_iff {pattern s : List Char} :
    Takes pattern s [] ↔ (matchFrom List.isEmpty pattern s).isSome := by
  rw [matchFrom_isSome_iff]
  simp

instance (pattern s : List Char) : Decidable (Takes pattern s []) :=
  decidable_of_iff _ takes_all_iff.symm

instance (pattern name part : String) : Decidable (ReachesInto pattern name part) :=
  decidable_of_iff (∃ taken ∈ (name ++ "." ++ part).toList.inits,
      name.toList.length < taken.length ∧ Takes pattern.toList taken []) <| by
    simp only [List.mem_inits, ReachesInto]

theorem toList_split (name part : String) :
    (name ++ "." ++ part).toList = name.toList ++ ("." ++ part).toList := by
  simp only [String.toList_append, List.append_assoc]

/-! ## The suffix of a key -/

theorem fill_literal {target : List Char} (literal : wildcard ∉ target) (last : List Char)
    (runs : List (List Char)) : fill last runs target = target := by
  induction target with
  | nil => simp [fill]
  | cons c target ih =>
    obtain ⟨ordinary, literal⟩ := not_or.mp fun mem => literal (List.mem_cons.mpr mem)
    simp only [fill, Ne.symm ordinary, if_false, ih literal]

theorem offered_suffix {pattern key : List Char} {found : Capture}
    (result : leading? pattern key = some found) : (offered pattern key).2 = found.rest := by
  rw [offered, result]
  obtain ⟨runs, rest⟩ := found
  cases runs <;> rfl

/-- What is put behind a key that the pattern stops at comes behind its output name. -/
theorem renameKey_append {pattern key more : List Char} {found : Capture}
    (result : leading? pattern key = some found)
    (ends : ∀ taken, taken <+: key ++ more → Takes pattern taken [] → taken.length ≤ key.length)
    (target : List Char) :
    renameKey pattern (key ++ more) target = renameKey pattern key target ++ more := by
  have longer := leading?_append result ends
  obtain ⟨runs, rest⟩ := found
  have runs_same : (offered pattern (key ++ more)).1 = (offered pattern key).1 := by
    rw [offered, offered, longer, result]
    cases runs with
    | cons run runs => rfl
    | nil =>
      -- without wildcards the slug of the taken text is offered, which is the same text
      have count : (key ++ more).length - (rest ++ more).length = key.length - rest.length := by
        simp only [List.length_append]
        omega
      dsimp only
      rw [count, List.take_append_of_le_length (Nat.sub_le _ _)]
  have suffix : (offered pattern (key ++ more)).2 = rest ++ more := offered_suffix longer
  have suffix' : (offered pattern key).2 = rest := offered_suffix result
  unfold renameKey
  dsimp only
  rw [runs_same, suffix, suffix', List.append_assoc]

theorem Leaves.unique {pattern key : String} {rest rest' : List Char}
    (leaves : Leaves pattern key rest) (leaves' : Leaves pattern key rest') : rest = rest' := by
  have le := leaves.shortest rest' leaves'.takes
  have ge := leaves'.shortest rest leaves.takes
  have within : rest <:+ rest' :=
    List.suffix_of_suffix_length_le leaves.takes.suffix leaves'.takes.suffix le
  exact within.eq_of_length (Nat.le_antisymm le ge)

/-- The search leaves what the longest match leaves, whichever runs it decides for. -/
theorem leaves_of_leading {pattern key : String} {found : Capture}
    (result : leading? pattern.toList key.toList = some found) : Leaves pattern key found.rest where
  takes := (matchFrom_splits result).1.takes
  shortest := by
    intro rest' takes
    exact (matchFrom_reaches (List.suffix_refl _) result takes).length_le

theorem exists_leaves {pattern key : String} (begins : (leading? pattern.toList key.toList).isSome) :
    ∃ rest, Leaves pattern key rest := by
  obtain ⟨found, result⟩ := Option.isSome_iff_exists.mp begins
  exact ⟨found.rest, leaves_of_leading result⟩

/-- For a target without wildcards the output name is the target with what the longest match leaves
behind it. -/
theorem outputName_literal {pattern key target : String} {rest : List Char}
    (leaves : Leaves pattern key rest) (literal : wildcard ∉ target.toList) :
    outputName pattern key target = String.ofList (target.toList ++ rest) := by
  obtain ⟨found, result⟩ := Option.isSome_iff_exists.mp (leading?_isSome_iff.mpr ⟨rest, leaves.takes⟩)
  have same : found.rest = rest := (leaves_of_leading result).unique leaves
  unfold outputName renameKey
  dsimp only
  rw [offered_suffix result, fill_literal literal, same]

/-! ## Parts of a value -/

/-- If the pattern stops at the name, the output name of a part is that of the name with the key of
the part behind it. -/
theorem toList_outputName_split {pattern name part : String}
    (begins : (leading? pattern.toList name.toList).isSome) (stops : ¬ ReachesInto pattern name part)
    (target : String) :
    (outputName pattern (name ++ "." ++ part) target).toList =
      (outputName pattern name target).toList ++ ("." ++ part).toList := by
  obtain ⟨found, result⟩ := Option.isSome_iff_exists.mp begins
  -- a beginning that ends behind the name would reach into the part
  have ends : ∀ taken, taken <+: name.toList ++ ("." ++ part).toList →
      Takes pattern.toList taken [] → taken.length ≤ name.toList.length := by
    intro taken front takes
    by_contra longer
    exact stops ⟨taken, by rwa [toList_split], by omega, takes⟩
  rw [outputName, outputName, toList_split, String.toList_ofList, String.toList_ofList]
  exact renameKey_append result ends target.toList

/-- A pattern that ends with a wildcard takes whatever has no line break behind what it takes. -/
theorem Takes.open_end {pattern s : List Char} (takes : Takes pattern s [])
    (isOpen : pattern.getLast? = some wildcard) {more : List Char} (clear : '\n' ∉ more) :
    Takes pattern (s ++ more) [] := by
  -- that nothing is left goes along with the induction as an equation
  generalize none_left : ([] : List Char) = rest at takes
  induction takes with
  | done => cases isOpen
  | @char c ps s rest ordinary _ ih =>
    subst none_left
    cases ps with
    | nil => exact absurd (Option.some.inj isOpen) ordinary
    | cons p ps => exact .char ordinary (ih (by simpa using isOpen) rfl)
  | @run run ps s rest runClear below ih =>
    subst none_left
    rw [List.append_assoc]
    cases ps with
    | nil =>
      -- the last wildcard takes what is added as well
      cases below
      have all : '\n' ∉ run ++ more := by simp [runClear, clear]
      have taken := Takes.run all (@Takes.done [])
      simpa using taken
    | cons p ps => exact .run runClear (ih (by simpa using isOpen) rfl)

/-- A name without a line break is matched to its very end. -/
theorem takes_of_matchesName {pattern name : String} (matched : matchesName pattern name = true)
    (clear : '\n' ∉ name.toList) : Takes pattern.toList name.toList [] := by
  rw [matchesName, captures?, Option.isSome_map, matchFrom_isSome_iff] at matched
  obtain ⟨rest, takes, fine⟩ := matched
  have ended : rest = [] := by
    simp only [isNameEnd, Bool.or_eq_true, decide_eq_true_eq] at fine
    refine fine.resolve_right fun line => clear ?_
    exact takes.suffix.subset (by simp [line])
  rwa [ended] at takes

/-- Renaming commutes with splitting, whatever the target is: if a name is the pattern with a run
for each wildcard and no longer beginning of the split key is one, then the output name of the part
is that of the name, with the key of the part behind it. -/
theorem outputName_split {pattern name part : String}
    (form : Takes pattern.toList name.toList []) (stops : ¬ ReachesInto pattern name part)
    (target : String) :
    outputName pattern (name ++ "." ++ part) target = outputName pattern name target ++ "." ++ part := by
  have begins : (leading? pattern.toList name.toList).isSome := leading?_isSome_iff.mpr ⟨[], form⟩
  apply String.toList_injective
  rw [toList_outputName_split begins stops target, toList_split]

/-- The key of the part has a dash and a dot of its own, but nothing in it goes on to `.json`. -/
theorem outputName_split_dashes :
    Takes "*-*.json".toList "a-b-c.json".toList [] ∧
      ¬ ReachesInto "*-*.json" "a-b-c.json" "d-e.js" ∧
      outputName "*-*.json" ("a-b-c.json" ++ "." ++ "d-e.js") "*/out-*" =
        outputName "*-*.json" "a-b-c.json" "*/out-*" ++ "." ++ "d-e.js" := by
  have form : Takes "*-*.json".toList "a-b-c.json".toList [] := by decide
  have stops : ¬ ReachesInto "*-*.json" "a-b-c.json" "d-e.js" := by decide
  exact ⟨form, stops, outputName_split form stops "*/out-*"⟩

/-- Two parts of one value get different output names, whatever the target is, if the pattern stops
at the name in both of their keys. For a target without wildcards they get the same one exactly if
the longest beginnings of their keys that the pattern takes leave the same rest; with a pattern that
ends with a wildcard nothing is left, and every part gets the target itself as its name. -/
theorem outputName_parts {pattern name : String} (matched : matchesName pattern name = true)
    (first second target : String) :
    (first ≠ second → ¬ ReachesInto pattern name first → ¬ ReachesInto pattern name second →
      outputName pattern (name ++ "." ++ first) target ≠
        outputName pattern (name ++ "." ++ second) target) ∧
    (wildcard ∉ target.toList →
      (outputName pattern (name ++ "." ++ first) target =
          outputName pattern (name ++ "." ++ second) target ↔
        ∃ rest, Leaves pattern (name ++ "." ++ first) rest ∧
          Leaves pattern (name ++ "." ++ second) rest)) ∧
    (wildcard ∉ target.toList → pattern.toList.getLast? = some wildcard → '\n' ∉ name.toList →
      '\n' ∉ first.toList → outputName pattern (name ++ "." ++ first) target = target) := by
  have begins := leading?_append_of_matchesName matched
  refine ⟨fun differ stops stops' same => ?_, fun literal => ?_, fun literal isOpen clear clear' => ?_⟩
  · have whole : (leading? pattern.toList name.toList).isSome := by simpa using begins []
    have names := congrArg String.toList same
    rw [toList_outputName_split whole stops, toList_outputName_split whole stops'] at names
    -- the two names begin alike, so the keys of the parts are the same
    have keys : ("." ++ first).toList = ("." ++ second).toList := List.append_cancel_left names
    simp only [String.toList_append] at keys
    exact differ (String.toList_injective (List.append_cancel_left keys))
  · obtain ⟨rest, leaves⟩ : ∃ rest, Leaves pattern (name ++ "." ++ first) rest :=
      exists_leaves (by rw [toList_split]; exact begins _)
    obtain ⟨rest', leaves'⟩ : ∃ rest, Leaves pattern (name ++ "." ++ second) rest :=
      exists_leaves (by rw [toList_split]; exact begins _)
    rw [outputName_literal leaves literal, outputName_literal leaves' literal]
    constructor
    · intro same
      have rests : rest = rest' := List.append_cancel_left (String.ofList_injective same)
      exact ⟨rest, leaves, rests ▸ leaves'⟩
    · rintro ⟨both, here, there⟩
      rw [leaves.unique here, leaves'.unique there]
  · -- the last wildcard takes the whole part
    have takes : Takes pattern.toList (name ++ "." ++ first).toList [] := by
      rw [toList_split]
      refine (takes_of_matchesName matched clear).open_end isOpen ?_
      simp [clear']
    have nothing_left : Leaves pattern (name ++ "." ++ first) [] :=
      ⟨takes, fun _ _ => Nat.zero_le _⟩
    rw [outputName_literal nothing_left literal, List.append_nil, String.ofList_toList]

/-- Two processes of one trace. A pattern that ends with `.json` keeps their names apart; one that
ends with a wildcard gives both the same name. -/
theorem outputName_parts_processes :
    matchesName "trace-*.json" "trace-1.json" = true ∧
      outputName "trace-*.json" ("trace-1.json" ++ "." ++ "42") "pids" ≠
        outputName "trace-*.json" ("trace-1.json" ++ "." ++ "43") "pids" ∧
      matchesName "trace-*" "trace-1" = true ∧
      outputName "trace-*" ("trace-1" ++ "." ++ "42") "pids" =
        outputName "trace-*" ("trace-1" ++ "." ++ "43") "pids" := by
  have matched : matchesName "trace-*.json" "trace-1.json" = true := by decide
  have open_matched : matchesName "trace-*" "trace-1" = true := by decide
  have apart := (outputName_parts matched "42" "43" "pids").1
  have together (part : String) := (outputName_parts open_matched part part "pids").2.2
  refine ⟨matched, apart (by decide) (by decide) (by decide), open_matched, ?_⟩
  rw [together "42" (by decide) (by decide) (by decide) (by decide),
    together "43" (by decide) (by decide) (by decide) (by decide)]

end Branchwork.Pattern
