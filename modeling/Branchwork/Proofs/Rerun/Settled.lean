import Branchwork.Proofs.FileSystem.Named
import Branchwork.Proofs.Walk.Inputs

/-!
# What stays settled during a run

The files that a run comes by lie between those that it starts from and those that it leaves
(`Between`). Whatever it reads of them is settled: read at any point, now or in a later run that comes
by files of the same kind, it comes to the same, failure or not. This holds as long as the run writes
nothing that it reads, see `Scope.InputsApart` and `TemplatesStay`.

One thing is not settled. A search that comes upon a name that is too long fails, and where there are
more directories it may come upon another such name first.

Main results:

* `settled_run` — the stages that turn values into values.
* `readInput_between` — the inputs.
-/

namespace Branchwork

open Action FileSystem

namespace Action

variable {α β : Type} {P : FileSystem → Prop}

/-- An action that comes to one result over all files of a kind, and leaves them as they are. -/
def Settled (P : FileSystem → Prop) (a : Action α) : Prop :=
  ∃ result, ∀ g, P g → a.over g = (result, g)

theorem FilesFree.settled {a : Action α} (free : FilesFree a) : Settled P a := by
  obtain ⟨result, same⟩ := free
  exact ⟨result, fun g _ => same g⟩

theorem Settled.bind {a : Action α} {f : α → Action β} (only : ∀ x, FilesOnly (f x))
    (first : Settled P a) (rest : ∀ x, (∀ g, P g → a.over g = (.ok x, g)) → Settled P (f x)) :
    Settled P (a >>= f) := by
  obtain ⟨result, same⟩ := first
  cases result with
  | error fault => exact ⟨.error fault, fun g here => by rw [over_bind a only, same g here]⟩
  | ok x =>
    obtain ⟨result, goesOn⟩ := rest x same
    exact ⟨result, fun g here => by rw [over_bind a only, same g here]; exact goesOn g here⟩

end Action

theorem Mapping.settled_mapValues {P : FileSystem → Prop} {action : Value → Action Value}
    (only : ∀ v, FilesOnly (action v)) {entries : Mapping}
    (each : ∀ entry ∈ entries, Settled P (action entry.2)) :
    Settled P (entries.mapValues action) := by
  induction entries with
  | nil => exact (filesFree_pure []).settled
  | cons entry rest ih =>
    refine Settled.bind (fun v => ?_) (each entry List.mem_cons_self) fun v _ => ?_
    · exact (filesOnly_mapValues only rest).bind fun more => filesOnly_pure _
    · refine Settled.bind (fun more => filesOnly_pure _) ?_ fun more _ => (filesFree_pure _).settled
      exact ih fun entry mem => each entry (List.mem_cons_of_mem _ mem)

namespace Rerun

open Stage

variable {scope : Stage.Scope} {written : List Location} {start final g : FileSystem}

/-- Files that a run comes by: more than it has started from, and less than it leaves. -/
structure Between (scope : Stage.Scope) (written : List Location) (start final g : FileSystem) :
    Prop where
  ready : Walk.Ready scope g
  grown : Grown written start g
  last : Grown written g final

/-! ## Files that are read -/

/-- A file that was there from the start and is not written reads the same throughout. -/
theorem Between.readFile_eq (between : Between scope written start final g) {p : Path}
    (known : start.follow scope.host.current p ≠ .error .missing)
    (file : ∀ place, start.follow scope.host.current p = .ok place →
      place ∉ written ∧ ∃ bytes, start.get? place = some (.file bytes)) :
    g.readFile scope.host.current p = start.readFile scope.host.current p := by
  cases leads : start.follow scope.host.current p with
  | error reason =>
    have reached : reason ≠ .missing := by
      rintro rfl
      exact known leads
    unfold readFile stat
    rw [leads, between.grown.follow_eq_error reached leads]
  | ok place =>
    -- the file lies where it lay, and as it is not written it holds what it held
    obtain ⟨apart, bytes, there⟩ := file place leads
    have there' := (between.grown.apart place apart bytes).mpr there
    rw [readFile_eq_ok.mpr ⟨place, leads, there⟩,
      readFile_eq_ok.mpr ⟨place, between.grown.follow leads, there'⟩]

theorem settled_readText {p : Path} {P : FileSystem → Prop} {read : Except FileSystem.Fault (List UInt8)}
    (same : ∀ g, P g → g.readFile scope.host.current p = read) : Settled P (scope.readText p) := by
  obtain ⟨checked, checks⟩ := Stage.filesFree_checkPath p
  cases checked with
  | error fault => exact ⟨.error fault, fun g _ => by rw [Stage.readText_over, checks]⟩
  | ok _ =>
    refine ⟨(read.mapError Fault.files).bind Stage.textOf, fun g here => ?_⟩
    rw [Stage.readText_over, checks]
    dsimp only
    rw [same g here]

/-! ## Templates -/

/-- The directory that the templates lie in, if there is one. -/
def templateDirectory? (scope : Stage.Scope) (fs : FileSystem) :
    Except FileSystem.Fault (Option Location) :=
  (fs.look scope.host.current (scope.settings.resolve scope.settings.templateDir)).map fun
    | some (place, .directory) => some place
    | _ => none

/-- Nothing is written directly into the directory of the templates, and it is at the end what it was
at the start. -/
structure TemplatesStay (scope : Stage.Scope) (written : List Location) (start final : FileSystem) :
    Prop where
  apart : scope.TemplatesApart written final
  directory : templateDirectory? scope final = templateDirectory? scope start

theorem templateDirectory?_eq_some {fs : FileSystem} {place : Location} :
    templateDirectory? scope fs = .ok (some place) ↔
      fs.look scope.host.current (scope.settings.resolve scope.settings.templateDir) =
        .ok (some (place, .directory)) := by
  unfold templateDirectory?
  rcases fs.look scope.host.current (scope.settings.resolve scope.settings.templateDir) with
    fault | _ | ⟨other, _ | _⟩ <;> simp [Except.map]

theorem templateDirectory?_eq_error {fs : FileSystem} {fault : FileSystem.Fault} :
    templateDirectory? scope fs = .error fault ↔
      fs.look scope.host.current (scope.settings.resolve scope.settings.templateDir) =
        .error fault := by
  unfold templateDirectory?
  cases fs.look scope.host.current (scope.settings.resolve scope.settings.templateDir) <;>
    simp [Except.map]

/-- What a directory of templates is cannot be taken back. -/
theorem templateDirectory?_later {fs h : FileSystem} (kept : Kept fs h)
    (known : templateDirectory? scope fs ≠ .ok none) :
    templateDirectory? scope h = templateDirectory? scope fs := by
  rcases found : templateDirectory? scope fs with fault | _ | place
  · obtain ⟨refused, same⟩ := look_eq_error.mp (templateDirectory?_eq_error.mp found)
    exact templateDirectory?_eq_error.mpr
      (look_eq_error.mpr ⟨kept.follow_eq_error (by decide) refused, same⟩)
  · exact absurd found known
  · obtain ⟨entry, look, same⟩ := kept.look (templateDirectory?_eq_some.mp found)
    rw [same.mpr rfl] at look
    exact templateDirectory?_eq_some.mpr look

theorem Between.templateDirectory?_eq (between : Between scope written start final g)
    (stay : TemplatesStay scope written start final) :
    templateDirectory? scope g = templateDirectory? scope start := by
  by_cases none_first : templateDirectory? scope start = .ok none
  · -- what there is in between there would be at the end
    by_contra other
    rw [none_first] at other
    have last := templateDirectory?_later between.last.toKept other
    rw [stay.directory, none_first] at last
    exact other last.symm
  · exact templateDirectory?_later between.grown.toKept none_first

theorem runTemplate_over_directory (v : Value) (fs : FileSystem) :
    (runTemplate scope v).over fs = match templateDirectory? scope fs with
      | .error fault => (.error (.files fault), fs)
      | .ok none => (.error (.noTemplates
          (scope.settings.resolve scope.settings.templateDir).text), fs)
      | .ok (some place) =>
        (scope.readTemplates (scope.settings.resolve scope.settings.templateDir) []
          (fileNames fs place) >>= renderTemplates scope.settings v).over fs := by
  rw [runTemplate_over]
  unfold templateDirectory?
  rcases fs.look scope.host.current (scope.settings.resolve scope.settings.templateDir) with
    fault | _ | ⟨place, _ | _⟩ <;> rfl

section

variable (begun : Walk.Ready scope start) (stay : TemplatesStay scope written start final)
include begun stay

/-- A template reads the same throughout. -/
theorem settled_readTemplate {place : Location}
    (directory : templateDirectory? scope start = .ok (some place)) (whole : Grown written start final)
    {name : String} (isFile : isFile start (place ++ [name]) = true) :
    Settled (Between scope written start final) (scope.readText
      ((scope.settings.resolve scope.settings.templateDir).below [name])) := by
  obtain ⟨leads, there⟩ := look_eq_some.mp (templateDirectory?_eq_some.mp directory)
  obtain ⟨bytes, file⟩ := isFile_eq_true.mp isFile
  have isName := begun.sound.proper_of_isSome (show (start.get? (place ++ [name])).isSome by
    rw [file]; rfl) name (by simp)
  refine settled_readText fun g between => between.readFile_eq ?_ fun found reaches => ?_
  · -- a file that is there is not missing; its path is at most too long
    intro missing
    have short : ((scope.settings.resolve scope.settings.templateDir).below [name]).text.utf8ByteSize
        < pathLimit := by
      by_contra long
      unfold follow at missing
      rw [if_pos (by omega)] at missing
      cases missing
    rw [follow_below leads short, locate, there] at missing
    dsimp only at missing
    split at missing <;> cases missing
  · rw [follow_below leads (short_of_follow reaches)] at reaches
    have same := locate_forth reaches (by simpa using Ne.symm isName.2.2.1)
    refine ⟨fun isWritten => ?_, bytes, same ▸ file⟩
    have last := templateDirectory?_later whole.toKept (by rw [directory]; simp)
    rw [directory] at last
    refine stay.apart place (templateDirectory?_eq_some.mp last) found isWritten ?_
    rw [same, List.dropLast_concat]

theorem settled_readTemplates {place : Location}
    (directory : templateDirectory? scope start = .ok (some place)) (whole : Grown written start final)
    {names : List String} (files : ∀ name ∈ names, isFile start (place ++ [name]) = true)
    (read : List (String × String)) :
    Settled (Between scope written start final)
      (scope.readTemplates (scope.settings.resolve scope.settings.templateDir) read names) := by
  induction names generalizing read with
  | nil => exact (filesFree_pure read).settled
  | cons name rest ih =>
    refine Settled.bind (fun text => filesOnly_readTemplates _ _ _ _) ?_ fun text _ => ih ?_ _
    · exact settled_readTemplate begun stay directory whole (files name List.mem_cons_self)
    · exact fun other mem => files other (List.mem_cons_of_mem _ mem)

theorem settled_runTemplate (whole : Grown written start final) (v : Value) :
    Settled (Between scope written start final) (runTemplate scope v) := by
  rcases directory : templateDirectory? scope start with fault | _ | place
  · refine ⟨.error (.files fault), fun g between => ?_⟩
    rw [runTemplate_over_directory, between.templateDirectory?_eq stay, directory]
  · refine ⟨.error (.noTemplates (scope.settings.resolve scope.settings.templateDir).text),
      fun g between => ?_⟩
    rw [runTemplate_over_directory, between.templateDirectory?_eq stay, directory]
  · -- the names of the templates are those of the start, and each of them reads the same
    have files : ∀ name ∈ fileNames start place, isFile start (place ++ [name]) = true := fun name mem =>
      (List.mem_filter.mp (List.mem_mergeSort.mp mem)).2
    obtain ⟨result, renders⟩ := Settled.bind (filesOnly_renderTemplates scope.settings v)
      (settled_readTemplates begun stay directory whole files []) fun templates _ =>
        (filesFree_renderTemplates _ _ _).settled
    refine ⟨result, fun g between => ?_⟩
    -- the directory is at its place to the end, and nothing was written into it
    have last := templateDirectory?_later between.last.toKept (by
      rw [between.templateDirectory?_eq stay, directory]; simp)
    rw [between.templateDirectory?_eq stay, directory] at last
    rw [runTemplate_over_directory, between.templateDirectory?_eq stay, directory]
    dsimp only
    rw [fileNames_again between.grown between.ready.sound
      (stay.apart place (templateDirectory?_eq_some.mp last))]
    exact renders g between

/-- A passing stage comes to the same throughout. -/
theorem settled_run (whole : Grown written start final) {s : Stage} (mem : s ∈ passing) (v : Value) :
    Settled (Between scope written start final) (s.run scope v) := by
  rcases filesFree_or_template scope mem v with free | same
  · exact free.settled
  · rw [same]
    exact settled_runTemplate begun stay whole v

theorem settled_applyStage (whole : Grown written start final) {s : Stage} (mem : s ∈ passing)
    (entries : Mapping) :
    Settled (Between scope written start final) (Walk.applyStage scope s.name entries) := by
  rw [Walk.applyStage_eq]
  refine Settled.bind (fun entries => filesOnly_pure _) ?_ fun entries _ => (filesFree_pure _).settled
  exact Mapping.settled_mapValues (filesOnly_run_of_passing mem) fun entry _ =>
    settled_run begun stay whole mem entry.2

end

/-! ## Inputs -/

section

variable {input : Experiment.Input} (begun : Walk.Ready scope start) (ended : Walk.Ready scope final)
  (whole : Grown written start final)
  (apart : scope.InputsApart input.pattern written start final)
include begun ended whole apart

/-- What was found at the start reads the same throughout. -/
theorem settled_readFound {all : List String}
    (found : start.glob scope.host.current scope.settings.workDir input.pattern = .ok all)
    {name : String} (mem : name ∈ all.filter (Pattern.matchesName input.pattern)) :
    Settled (Between scope written start final)
      (scope.readText (scope.settings.resolve (.ofText name))) := by
  obtain ⟨isFound, fits⟩ := List.mem_filter.mp mem
  have named : start.Named := ⟨begun.sound.once, begun.sound.proper⟩
  obtain ⟨place, bytes, look⟩ := look_of_mem_glob named found isFound
  obtain ⟨leads, there⟩ := look_eq_some.mp look
  refine settled_readText fun g between => between.readFile_eq ?_ fun found' leads' => ?_
  · change start.follow scope.host.current (scope.settings.workDir.join (.ofText name)) ≠ _
    rw [leads]
    simp
  · obtain rfl : place = found' := Except.ok.inj (leads.symm.trans leads')
    obtain ⟨later, last⟩ := apart.searchable ⟨all, found⟩
    obtain ⟨all', first, more⟩ := glob_subset begun.sound ended.sound whole last
    rw [found] at first
    cases first
    exact ⟨apart.unselected later last name (more isFound) fits place (whole.follow leads),
      bytes, there⟩

/-- What is done with the names that were found comes to the same throughout. -/
theorem settled_readNames {all : List String}
    (found : start.glob scope.host.current scope.settings.workDir input.pattern = .ok all) :
    Settled (Between scope written start final) (Walk.readNames scope input
      (all.filter (Pattern.matchesName input.pattern))) := by
  refine Settled.bind (Mapping.filesOnly_mapValues (Walk.filesOnly_reader input))
    (filesFree_ofExcept .shape _).settled fun entries keyed => ?_
  obtain ⟨rows, keys, -, own⟩ := Mapping.ofKeys_texts
    (all.filter (Pattern.matchesName input.pattern))
  have keyed := keyed start ⟨begun, .refl _ _, whole⟩
  rw [ofShape, over_ofExcept, keys] at keyed
  cases keyed
  refine Mapping.settled_mapValues (Walk.filesOnly_reader input) fun entry mem => ?_
  obtain ⟨row, isRow, rfl⟩ := List.mem_map.mp mem
  obtain ⟨isName, same⟩ := own row isRow
  dsimp only
  rw [same, Walk.reader_eq]
  refine Settled.bind (Walk.filesOnly_read input) ?_ fun text _ => (Walk.filesFree_read input text).settled
  refine Settled.bind (filesOnly_readText scope) (filesFree_ofExcept .shape _).settled fun p isPath => ?_
  -- the path of a name does not depend on the files
  have isPath := isPath start ⟨begun, .refl _ _, whole⟩
  cases isPath
  exact settled_readFound begun ended whole apart found isName

/-- An input reads the same throughout, or the search for it comes upon names that are too long. -/
theorem readInput_between
    (there : start.isDirectory scope.host.current scope.settings.workDir = true) :
    Settled (Between scope written start final) (Walk.readInput scope input) ∨
      ∀ g, Between scope written start final g → ∃ fault, fault.reason = .nameTooLong ∧
        (Walk.readInput scope input).over g = (.error (.glob (.files fault)), g) := by
  have fails : ∀ {g problem},
      g.glob scope.host.current scope.settings.workDir input.pattern = .error problem →
      (Walk.readInput scope input).over g = (.error (.glob problem), g) := by
    intro g problem failed
    have split : (Walk.readInput scope input).over g = _ := over_bind _ Walk.filesOnly_readNames g
    rw [split, findFiles_over, failed]
    rfl
  cases found : start.glob scope.host.current scope.settings.workDir input.pattern with
  | ok all =>
    -- what was found is found again, and reads the same
    left
    refine Settled.bind Walk.filesOnly_readNames
      ⟨.ok (all.filter (Pattern.matchesName input.pattern)), fun g between => ?_⟩
      fun names isFound => ?_
    · refine findFiles_again begun.sound between.ready.sound ended.sound between.grown between.last
        apart there _ ?_
      exact findFiles_over_eq_ok.mpr ⟨all, found, rfl⟩
    · have isFound := isFound start ⟨begun, .refl _ _, whole⟩
      rw [findFiles_over, found] at isFound
      cases isFound
      exact settled_readNames begun ended whole apart found
  | error problem =>
    -- a pattern is refused over all files, or for a name that is too long
    rcases glob_eq_error found with everywhere | ⟨fault, rfl, tooLong⟩
    · exact .inl ⟨.error (.glob problem), fun g _ => fails (everywhere g)⟩
    · right
      intro g between
      cases failed : g.glob scope.host.current scope.settings.workDir input.pattern with
      | ok later =>
        obtain ⟨names, first, -⟩ :=
          glob_subset begun.sound between.ready.sound between.grown failed
        rw [found] at first
        cases first
      | error problem =>
        rcases glob_eq_error failed with everywhere | ⟨fault', rfl, tooLong'⟩
        · have same := (everywhere start).symm.trans found
          cases same
          exact ⟨fault, tooLong, fails failed⟩
        · exact ⟨fault', tooLong', fails failed⟩

end

end Rerun

end Branchwork
