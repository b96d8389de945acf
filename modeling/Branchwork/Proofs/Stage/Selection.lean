import Branchwork.Proofs.Experiment.Description
import Branchwork.Proofs.FileSystem.Spelling
import Branchwork.Proofs.Pattern.Count
import Branchwork.Proofs.Pattern.Language
import Branchwork.Proofs.Stage.Again
import Branchwork.Proofs.Walk.Run

/-!
# What an input pattern selects

A pattern is read twice: a search goes along it component by component, and then it has to match the
whole of each name that was found, as a text in which `*` alone is a wildcard. The second reading is
the narrower one for `**`, which the search may pass without a directory.

Main results:

* `selection_ascending_and_complete` — what is selected, and that nothing else is dropped.
* `captured_within_component` — what wildcards take of a selected name has no slash in it.
-/

namespace Branchwork.Stage

open Action FileSystem

variable {scope : Scope} {pattern : String} {w w' : World} {names : List String}

theorem findFiles_eq_ok (ran : (scope.findFiles pattern).on w = (.ok names, w')) :
    ∃ found, w.files.glob scope.host.current scope.settings.workDir pattern = .ok found ∧
      names = found.filter (Pattern.matchesName pattern) := by
  obtain ⟨_, _, whole⟩ := (filesOnly_findFiles scope pattern).on_eq w
  rw [ran, (reads_findFiles pattern).over_eq] at whole
  obtain ⟨found, globbed, rfl⟩ := findFiles_over_eq_ok.mp (Prod.ext_iff.mp whole).1.symm
  exact ⟨found, globbed, rfl⟩

/-- What a search finds is a file, and it lies below the directory of the search if the pattern does
not lead back. -/
theorem file_of_mem_glob {fs : FileSystem} (named : fs.Named) {current : Location} {b : Path}
    {found : List String} (globbed : fs.glob current b pattern = .ok found) {name : String}
    (mem : name ∈ found) : ∃ place bytes,
      fs.look current (b.join (.ofText name)) = .ok (some (place, .file bytes)) ∧
        (".." ∉ (Path.ofText pattern).parts →
          ∃ start more, fs.look current b = .ok (some (start, .directory)) ∧ more ≠ [] ∧
            place = start ++ more) := by
  obtain ⟨asked, start, names, place, bytes, read, begins, finds, ne, -, path, file⟩ :=
    exists_finds named globbed mem
  rw [path]
  refine ⟨place, bytes, file, fun forth => ⟨start, names, begins, ne, ?_⟩⟩
  rw [← below_nil b] at begins
  exact look_below_forth begins file (finds.forth named.proper (readPattern_forth read forth))

/-! ## Names without a line break -/

/-- A text is taken as a whole exactly if the pattern matches it as a name, unless it has a line break
at its end. -/
theorem matchesName_of_takes {name : String} (takes : Pattern.Takes pattern.toList name.toList []) :
    Pattern.matchesName pattern name = true := by
  rw [Pattern.matchesName, Pattern.captures?, Option.isSome_map, Pattern.matchFrom_isSome_iff]
  exact ⟨[], takes, rfl⟩

/-- A pattern for files selects names in ascending order. Each of them was found by the search and is a
file, below the working directory unless the pattern leads back. Of the names that were found, a
pattern that is spelt as its components are joined selects those that it matches as a text; and among
those are all names without a line break that the search comes to with at least one directory for every
`**`, which are all names without a line break if there is no `**`. -/
theorem selection_ascending_and_complete {identifier : String} {input : Experiment.Input}
    (read : Experiment.Input.read identifier = .ok input) (fromFiles : input.kind.isCapture = false)
    (named : w.files.Named) (ran : (scope.findFiles input.pattern).on w = (.ok names, w')) :
    ∃ found, w.files.glob scope.host.current scope.settings.workDir input.pattern = .ok found ∧
      names.Pairwise (· < ·) ∧
      (∀ name ∈ names, name ∈ found ∧ ∃ place bytes,
        w.files.look scope.host.current (scope.settings.resolve (.ofText name)) =
          .ok (some (place, .file bytes)) ∧
        (".." ∉ (Path.ofText input.pattern).parts → ∃ start more,
          w.files.look scope.host.current scope.settings.workDir =
            .ok (some (start, .directory)) ∧ more ≠ [] ∧ place = start ++ more)) ∧
      ((Path.ofText input.pattern).text = input.pattern → ∀ name ∈ found,
        (name ∈ names ↔ ∃ runs, Pattern.Decomposes input.pattern runs name) ∧
        ('\n' ∉ name.toList →
          "**" ∉ (Path.ofText input.pattern).parts ∨ FoundDeep w.files scope.host.current
            scope.settings.workDir input.pattern name → name ∈ names)) := by
  obtain ⟨found, globbed, rfl⟩ := findFiles_eq_ok ran
  have supported := (Experiment.Input.spelt_of_read read).supported fromFiles
  refine ⟨found, globbed, (glob_ascending globbed).filter _, fun name mem => ?_,
    fun spelt name mem => ⟨?_, fun clear way => ?_⟩⟩
  · obtain ⟨isFound, -⟩ := List.mem_filter.mp mem
    exact ⟨isFound, file_of_mem_glob named globbed isFound⟩
  · rw [List.mem_filter, and_iff_right mem]
    exact (Pattern.captures?_longest input.pattern name).1
  · have deep := way.elim (foundDeep_of_mem_glob named globbed · mem) id
    have unset : '?' ∉ input.pattern.toList ∧ '[' ∉ input.pattern.toList :=
      ⟨supported '?' (by decide), supported '[' (by decide)⟩
    exact List.mem_filter.mpr ⟨mem, matchesName_of_takes (deep.takes spelt unset clear)⟩

/-- The search for the files of a name in all directories. -/
def anywhere : Experiment.Input := ⟨"**/x.json", .file, "**/x.json"⟩

/-- Such a file in a directory. -/
def nested : FileSystem := ⟨[(["d"], .directory), (["d", "x.json"], .file [49])]⟩

/-- The file in the directory is selected. -/
theorem nested_selected : ∃ names w',
    (Walk.bareScope.findFiles anywhere.pattern).on (.start nested) = (.ok names, w') ∧
      names.Pairwise (· < ·) ∧ "d/x.json" ∈ names := by
  have selects : ((Walk.bareScope.findFiles anywhere.pattern).on (.start nested)).1.toOption =
      some ["d/x.json"] := by decide +kernel
  obtain ⟨w', ran⟩ : ∃ w', (Walk.bareScope.findFiles anywhere.pattern).on (.start nested) =
      (.ok ["d/x.json"], w') := ⟨_, Prod.ext (eq_ok_of_toOption selects) rfl⟩
  have named : nested.Named := ⟨by decide, by decide⟩
  have read : Experiment.Input.read "**/x.json" = .ok anywhere := rfl
  obtain ⟨found, -, ascending, each, complete⟩ :=
    selection_ascending_and_complete read rfl named ran
  have there : nested.look Walk.bareScope.host.current Walk.bareScope.settings.workDir =
      .ok (some ([], .directory)) := by decide +kernel
  have deep : FoundDeep nested Walk.bareScope.host.current Walk.bareScope.settings.workDir
      anywhere.pattern "d/x.json" := by
    refine ⟨(false, [.directories, .name "x.json"]), ["d"] ++ (["x.json"] ++ []), rfl, ?_, by decide⟩
    exact .step (.directories there (by decide)) (List.cons_ne_nil _ _)
      (.step (.name ⟨["d", "x.json"], .file [49], by decide +kernel, .inr ⟨rfl, rfl⟩⟩)
        (List.cons_ne_nil _ _) .here)
  have isFound := (each "d/x.json" List.mem_cons_self).1
  exact ⟨_, w', ran, ascending, (complete (by decide +kernel) _ isFound).2 (by decide) (.inr deep)⟩

/-- The same file without the directory. -/
def topmost : FileSystem := ⟨[(["x.json"], .file [49])]⟩

/-- The search finds it, and it is not selected. -/
theorem topmost_dropped : ∃ found, Experiment.Input.read "**/x.json" = .ok anywhere ∧
    topmost.Named ∧
    topmost.glob Walk.bareScope.host.current Walk.bareScope.settings.workDir anywhere.pattern =
      .ok found ∧ "x.json" ∈ found ∧ '\n' ∉ "x.json".toList ∧
    topmost.look Walk.bareScope.host.current (Walk.bareScope.settings.resolve (.ofText "x.json")) =
      .ok (some (["x.json"], .file [49])) ∧
    ∃ names w', (Walk.bareScope.findFiles anywhere.pattern).on (.start topmost) = (.ok names, w') ∧
      "x.json" ∉ names := by
  have finds : (topmost.glob Walk.bareScope.host.current Walk.bareScope.settings.workDir
      anywhere.pattern).toOption = some ["x.json"] := by decide +kernel
  have selects : ((Walk.bareScope.findFiles anywhere.pattern).on (.start topmost)).1.toOption =
      some [] := by decide +kernel
  exact ⟨_, rfl, ⟨by decide, by decide⟩, eq_ok_of_toOption finds, List.mem_cons_self, by decide,
    by decide +kernel, [], _, Prod.ext (eq_ok_of_toOption selects) rfl, List.not_mem_nil⟩

/-! ## What wildcards take -/

/-- Whatever a file is found for stays within one component: of a name that a pattern without `**`
selects, no wildcard takes a slash, nor does the slug that is offered where there is none. So an output
name has as many slashes as its target. -/
theorem captured_within_component (single : "**" ∉ (Path.ofText pattern).parts)
    (named : w.files.Named) (ran : (scope.findFiles pattern).on w = (.ok names, w'))
    {name : String} (mem : name ∈ names) :
    (∀ run ∈ (Pattern.offered pattern.toList name.toList).1, '/' ∉ run) ∧
      ∀ target, (Pattern.outputName pattern name target).toList.count '/' =
        target.toList.count '/' := by
  obtain ⟨found, globbed, rfl⟩ := findFiles_eq_ok ran
  obtain ⟨isFound, matched⟩ := List.mem_filter.mp mem
  have few := count_slash_le named globbed single isFound
  have taken := Pattern.leading?_append_of_matchesName matched []
  rw [List.append_nil] at taken
  have ordinary : '/' ≠ Pattern.wildcard := by decide
  refine ⟨(Pattern.offered_clear ordinary (by decide) taken few).1, fun target => ?_⟩
  unfold Pattern.outputName
  rw [String.toList_ofList]
  exact Pattern.count_renameKey ordinary (by decide) taken few _

/-- The files of a directory, under new names. -/
theorem nested_captured : ∃ names w',
    (Walk.bareScope.findFiles "d/*.json").on (.start nested) = (.ok names, w') ∧
      "d/x.json" ∈ names ∧
      (∀ run ∈ (Pattern.offered "d/*.json".toList "d/x.json".toList).1, '/' ∉ run) ∧
      (Pattern.outputName "d/*.json" "d/x.json" "out/*/*.txt").toList.count '/' = 2 := by
  have selects : ((Walk.bareScope.findFiles "d/*.json").on (.start nested)).1.toOption =
      some ["d/x.json"] := by decide +kernel
  obtain ⟨w', ran⟩ : ∃ w', (Walk.bareScope.findFiles "d/*.json").on (.start nested) =
      (.ok ["d/x.json"], w') := ⟨_, Prod.ext (eq_ok_of_toOption selects) rfl⟩
  have named : nested.Named := ⟨by decide, by decide⟩
  obtain ⟨clear, count⟩ :=
    captured_within_component (by decide) named ran (List.mem_singleton_self "d/x.json")
  exact ⟨_, w', ran, List.mem_cons_self, clear, count "out/*/*.txt"⟩

end Branchwork.Stage
