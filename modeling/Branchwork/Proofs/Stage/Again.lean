import Branchwork.Proofs.FileSystem.Search
import Branchwork.Proofs.Step.FilesOnly

/-!
# Reading again

Most stages only look at the files: they read the inputs and the templates. What such an action has
come to over some files it comes to again over files that have grown, as long as nothing was written
to the files that it reads (`Again`).

Main results:

* `Stage.run_again` — the stages that turn values into values.
* `Stage.findFiles_again`, `Stage.readText_again` — the inputs.
-/

namespace Branchwork

open Action FileSystem

namespace Action

variable {α β : Type} {fs g : FileSystem}

/-- An action that leaves the files as they are. -/
def Reads (a : Action α) : Prop := ∀ fs, (a.over fs).2 = fs

/-- What an action has come to over the first files it comes to over the second. -/
def Again (fs g : FileSystem) (a : Action α) : Prop :=
  ∀ x, (a.over fs).1 = .ok x → a.over g = (.ok x, g)

theorem FilesFree.reads {a : Action α} (free : FilesFree a) : Reads a := by
  obtain ⟨result, same⟩ := free
  exact fun fs => by rw [same]

theorem FilesFree.again {a : Action α} (free : FilesFree a) : Again fs g a := by
  obtain ⟨result, same⟩ := free
  intro x h
  rw [same] at h ⊢
  dsimp only at h
  rw [h]

theorem Reads.bind {a : Action α} {f : α → Action β} (only : ∀ x, FilesOnly (f x)) (first : Reads a)
    (rest : ∀ x, Reads (f x)) : Reads (a >>= f) := by
  intro fs
  have here := first fs
  rw [over_bind a only]
  rcases ran : a.over fs with ⟨_ | x, fs'⟩
  · rw [ran] at here
    exact here
  · rw [ran] at here
    dsimp only at here ⊢
    rw [here]
    exact rest x fs

theorem Again.bind {a : Action α} {f : α → Action β} (only : ∀ x, FilesOnly (f x)) (reads : Reads a)
    (first : Again fs g a) (rest : ∀ x, (a.over fs).1 = .ok x → Again fs g (f x)) :
    Again fs g (a >>= f) := by
  intro y h
  have here := reads fs
  rw [over_bind a only] at h ⊢
  rcases ran : a.over fs with ⟨_ | x, fs'⟩
  · rw [ran] at h
    cases h
  · rw [ran] at h here
    dsimp only at here
    rw [here] at h
    rw [first x (by rw [ran])]
    exact rest x (by rw [ran]) y h

theorem Reads.over_eq {a : Action α} (reads : Reads a) (fs : FileSystem) :
    a.over fs = ((a.over fs).1, fs) := Prod.ext rfl (reads fs)

/-- An action that only reads fails or gives its result where it has started. -/
theorem Reads.over_cases {a : Action α} (reads : Reads a) (fs : FileSystem) :
    (∃ fault, a.over fs = (.error fault, fs)) ∨ ∃ x, a.over fs = (.ok x, fs) := by
  rw [reads.over_eq fs]
  cases (a.over fs).1 with
  | error fault => exact .inl ⟨fault, rfl⟩
  | ok x => exact .inr ⟨x, rfl⟩

end Action

/-! ## Values of a mapping -/

theorem Mapping.reads_mapValues {action : Value → Action Value}
    (only : ∀ v, FilesOnly (action v)) (reads : ∀ v, Reads (action v)) (entries : Mapping) :
    Reads (entries.mapValues action) := by
  induction entries with
  | nil => exact fun _ => rfl
  | cons entry rest ih =>
    refine Reads.bind (fun v => ?_) (reads _) fun v => ?_
    · exact (filesOnly_mapValues only rest).bind fun more => filesOnly_pure _
    · exact Reads.bind (fun more => filesOnly_pure _) ih fun more => (filesFree_pure _).reads

theorem Mapping.mapValues_again {fs g : FileSystem} {action : Value → Action Value}
    (only : ∀ v, FilesOnly (action v)) (reads : ∀ v, Reads (action v)) {entries : Mapping}
    (each : ∀ entry ∈ entries, Again fs g (action entry.2)) :
    Again fs g (entries.mapValues action) := by
  induction entries with
  | nil => exact (filesFree_pure []).again
  | cons entry rest ih =>
    refine Again.bind (fun v => ?_) (reads _) (each entry List.mem_cons_self) fun v _ => ?_
    · exact (filesOnly_mapValues only rest).bind fun more => filesOnly_pure _
    · refine Again.bind (fun more => filesOnly_pure _) (reads_mapValues only reads rest) ?_ ?_
      · exact ih fun entry mem => each entry (List.mem_cons_of_mem _ mem)
      · exact fun more _ => (filesFree_pure _).again

namespace Stage

variable {scope : Scope} {written : List Location} {fs g : FileSystem}

/-! ## Files that are read -/

/-- The text in the bytes of a file. -/
def textOf (bytes : List UInt8) : Except Fault String :=
  ((Utf8.decode bytes).mapError Fault.utf8).map fun text =>
    String.ofList (Text.unifyLineEnds text.toList)

theorem readText_over (p : Path) (fs : FileSystem) :
    (scope.readText p).over fs = match (checkPath p).over fs with
      | (.error fault, fs) => (.error fault, fs)
      | (.ok _, fs) =>
        (((fs.readFile scope.host.current p).mapError Fault.files).bind textOf, fs) := by
  unfold Scope.readText
  -- what follows each step does not look at the world, so the steps can be taken one by one
  have decodes : ∀ bytes, FilesOnly (do
      let text ← ofExcept .utf8 (Utf8.decode bytes)
      return String.ofList (Text.unifyLineEnds text.toList) : Action String) := fun bytes =>
    (filesOnly_ofExcept _ _).bind fun text => filesOnly_pure _
  have opens : ∀ files : FileSystem, FilesOnly (do
      let bytes ← ofExcept .files (files.readFile scope.host.current p)
      let text ← ofExcept .utf8 (Utf8.decode bytes)
      return String.ofList (Text.unifyLineEnds text.toList) : Action String) := fun files =>
    (filesOnly_ofExcept _ _).bind decodes
  rw [over_bind _ fun _ => filesOnly_files.bind opens]
  rcases (checkPath p).over fs with ⟨_ | _, fs⟩
  · rfl
  dsimp only
  rw [over_bind _ opens, over_files]
  dsimp only
  rw [over_bind _ decodes, over_ofExcept]
  cases fs.readFile scope.host.current p with
  | error fault => rfl
  | ok bytes =>
    change (ofExcept .utf8 (Utf8.decode bytes) >>= _ : Action String).over fs = (textOf bytes, fs)
    unfold textOf
    rw [over_bind _ fun text => filesOnly_pure _, over_ofExcept]
    cases Utf8.decode bytes <;> rfl

theorem reads_checkPath (p : Path) : Reads (checkPath p) := by
  intro fs
  unfold checkPath
  cases Text.unnamable? p.text with
  | some found => rfl
  | none =>
    dsimp only
    split <;> rfl

theorem reads_readText (p : Path) : Reads (scope.readText p) := by
  intro fs
  rw [readText_over, (reads_checkPath p).over_eq]
  rcases ((checkPath p).over fs).1 with _ | _ <;> rfl

theorem readFile_eq_ok {fs : FileSystem} {current : Location} {p : Path} {bytes : List UInt8} :
    fs.readFile current p = .ok bytes ↔
      ∃ place, fs.follow current p = .ok place ∧ fs.get? place = some (.file bytes) := by
  simp only [← stat_eq_ok]
  unfold readFile
  split
  · simp_all
  · simp_all
  · simp_all

/-- A file that holds the same bytes reads as the same text. -/
theorem readText_again_of {p : Path}
    (same : ∀ bytes, fs.readFile scope.host.current p = .ok bytes →
      g.readFile scope.host.current p = .ok bytes) : Again fs g (scope.readText p) := by
  intro text h
  rw [readText_over, (reads_checkPath p).over_eq] at h ⊢
  obtain ⟨check, checks⟩ := filesFree_checkPath p
  rw [checks] at h ⊢
  cases check with
  | error fault => cases h
  | ok _ =>
    dsimp only at h ⊢
    cases read : fs.readFile scope.host.current p with
    | error fault =>
      rw [read] at h
      cases h
    | ok bytes =>
      rw [read] at h
      rw [same bytes read]
      exact Prod.ext h rfl

/-- A file that was not written reads as before. -/
theorem readText_again (grown : Grown written fs g) {p : Path}
    (apart : ∀ place, g.follow scope.host.current p = .ok place → place ∉ written) :
    Again fs g (scope.readText p) := by
  refine readText_again_of fun bytes read => ?_
  obtain ⟨place, leads, file⟩ := readFile_eq_ok.mp read
  have leads' := grown.follow leads
  have file' := (grown.apart place (apart place leads') bytes).mpr file
  exact readFile_eq_ok.mpr ⟨place, leads', file'⟩

/-! ## Templates -/

/-- Nothing was written directly into the directory of the templates. -/
def Scope.TemplatesApart (scope : Scope) (written : List Location) (fs : FileSystem) : Prop :=
  ∀ place, fs.look scope.host.current (scope.settings.resolve scope.settings.templateDir) =
      .ok (some (place, .directory)) → ∀ other ∈ written, other.dropLast ≠ place

/-- Something is a file. -/
def isFile (fs : FileSystem) (place : Location) : Bool :=
  match fs.get? place with
  | some (.file _) => true
  | _ => false

theorem isFile_eq_true {fs : FileSystem} {place : Location} :
    isFile fs place = true ↔ ∃ bytes, fs.get? place = some (.file bytes) := by
  unfold isFile
  cases fs.get? place with
  | none => simp
  | some entry => cases entry <;> simp

/-- A directory into which nothing was written holds the same files. -/
theorem fileNames_again (grown : Grown written fs g) (sound : g.Sound) {place : Location}
    (apart : ∀ other ∈ written, other.dropLast ≠ place) :
    fileNames g place = fileNames fs place := by
  have notWritten : ∀ name, place ++ [name] ∉ written := fun name mem =>
    apart _ mem List.dropLast_concat
  have same : ∀ name, isFile g (place ++ [name]) = isFile fs (place ++ [name]) := by
    intro name
    rw [Bool.eq_iff_iff, isFile_eq_true, isFile_eq_true]
    exact exists_congr (grown.apart _ (notWritten name))
  obtain ⟨more, split⟩ := grown.places
  -- what has come into the directory since is no file
  have fresh : (more.filterMap fun p =>
      if p.length = place.length + 1 && place.isPrefixOf p then p.getLast? else none).filter
        (fun name => isFile g (place ++ [name])) = [] := by
    refine List.filter_eq_nil_iff.mpr fun name mem isFile => ?_
    have new : name ∈ (⟨more.map fun p => (p, .directory)⟩ : FileSystem).children place := by
      rw [children_eq]
      simpa [places] using mem
    have new : place ++ [name] ∈ more := by
      have mem := mem_children_iff.mp new
      simpa [places] using mem
    have old : place ++ [name] ∈ fs.places := by
      rw [mem_places_iff (by simp)]
      obtain ⟨bytes, file⟩ := isFile_eq_true.mp isFile
      rw [(grown.apart _ (notWritten name) bytes).mp file]
      rfl
    have once := sound.once
    rw [← split] at once
    exact (List.nodup_append.mp once).2.2 _ old _ new rfl
  -- so the files among the names are the same ones, in the same order
  have files : (g.children place).filter (fun name => isFile g (place ++ [name])) =
      (fs.children place).filter fun name => isFile fs (place ++ [name]) := by
    rw [children_eq g, ← split, List.filterMap_append, List.filter_append, fresh, List.append_nil,
      ← children_eq fs]
    exact List.filter_congr fun name _ => same name
  exact congrArg (fun names => names.mergeSort fun a b => a ≤ b) files

theorem reads_readTemplates (directory : Path) (read : List (String × String))
    (names : List String) : Reads (scope.readTemplates directory read names) := by
  induction names generalizing read with
  | nil => exact fun _ => rfl
  | cons name rest ih =>
    exact Reads.bind (fun text => filesOnly_readTemplates _ _ _ _) (reads_readText _) fun text => ih _

theorem readTemplates_again (sound : fs.Sound) (grown : Grown written fs g) {directory : Path}
    {place : Location} (leads : g.follow scope.host.current directory = .ok place)
    (apart : ∀ other ∈ written, other.dropLast ≠ place) (read : List (String × String))
    {names : List String} (old : ∀ name ∈ names, name ∈ fs.children place) :
    Again fs g (scope.readTemplates directory read names) := by
  induction names generalizing read with
  | nil => exact (filesFree_pure read).again
  | cons name rest ih =>
    refine Again.bind (fun text => filesOnly_readTemplates _ _ _ _) (reads_readText _) ?_
      fun text _ => ih _ fun other mem => old other (List.mem_cons_of_mem _ mem)
    refine readText_again grown fun found reaches isWritten => ?_
    -- the template lies directly in the directory
    have isName := sound.proper _ (mem_children_iff.mp (old name List.mem_cons_self)) name (by simp)
    rw [show ({ directory with parts := directory.parts ++ [name] } : Path) =
      directory.below [name] from rfl] at reaches
    rw [follow_below leads (short_of_follow reaches)] at reaches
    have same := locate_forth reaches (by simpa using Ne.symm isName.2.2.1)
    exact apart found isWritten (by rw [same, List.dropLast_concat])

/-- Templates come to texts, under their stems. -/
theorem renderAll_texts {settings : Settings} {v : Value} {templates : List (String × String)}
    {entries : Mapping} (h : renderAll settings v templates = .ok entries) :
    ∃ rows : List (String × String), entries = rows.map fun row => (.text row.1, .text row.2) := by
  induction templates generalizing entries with
  | nil =>
    cases h
    exact ⟨[], rfl⟩
  | cons template rest ih =>
    obtain ⟨stem, text⟩ := template
    rw [renderAll] at h
    split at h
    · cases h
    · rename_i rendered _
      cases others : renderAll settings v rest with
      | error problem =>
        rw [others] at h
        cases h
      | ok more =>
        rw [others] at h
        cases h
        obtain ⟨rows, rfl⟩ := ih others
        exact ⟨(stem, rendered) :: rows, rfl⟩

/-- What is done with the templates once they are read. -/
def renderTemplates (settings : Settings) (v : Value) (templates : List (String × String)) :
    Action Value := do
  let problems := templates.flatMap fun (stem, text) =>
    (Template.validate (some settings) text).map fun problem => (stem, problem)
  unless problems.isEmpty do throw (.templates problems)
  return .map (← Action.ofExcept .template (renderAll settings v templates))

theorem filesFree_renderTemplates (settings : Settings) (v : Value)
    (templates : List (String × String)) : FilesFree (renderTemplates settings v templates) := by
  unfold renderTemplates
  dsimp only
  split
  · exact FilesFree.bind (fun _ => filesOnly_pure _) (filesFree_ofExcept _ _) fun _ =>
      filesFree_pure _
  · exact ⟨_, fun _ => rfl⟩

theorem filesOnly_renderTemplates (settings : Settings) (v : Value)
    (templates : List (String × String)) : FilesOnly (renderTemplates settings v templates) := by
  have renders : FilesOnly (do
      return .map (← ofExcept .template (renderAll settings v templates)) : Action Value) :=
    (filesOnly_ofExcept _ _).bind fun rendered => filesOnly_pure _
  unfold renderTemplates
  dsimp only
  split
  · exact renders
  · exact (filesOnly_throw _).bind fun _ => renders

theorem filesOnly_renderEach (v : Value) (names : List String) : FilesOnly
    (scope.readTemplates (scope.settings.resolve scope.settings.templateDir) [] names >>=
      renderTemplates scope.settings v) :=
  (filesOnly_readTemplates _ _ _ _).bind (filesOnly_renderTemplates _ _)

/-- What is done once the directory of the templates was looked for. -/
def renderAt (scope : Scope) (v : Value) : Option (Location × Entry) → Action Value
  | some (place, .directory) => do
    let files ← Action.files
    scope.readTemplates (scope.settings.resolve scope.settings.templateDir) []
      (fileNames files place) >>= renderTemplates scope.settings v
  | _ => throw (.noTemplates (scope.settings.resolve scope.settings.templateDir).text)

theorem runTemplate_eq (v : Value) : runTemplate scope v =
    look scope.host.current (scope.settings.resolve scope.settings.templateDir) >>=
      renderAt scope v := rfl

theorem filesOnly_renderAt (v : Value) (found? : Option (Location × Entry)) :
    FilesOnly (renderAt scope v found?) := by
  unfold renderAt
  split
  · exact filesOnly_files.bind fun files => filesOnly_renderEach v _
  · exact filesOnly_throw _

theorem runTemplate_over (v : Value) (fs : FileSystem) :
    (runTemplate scope v).over fs =
      match fs.look scope.host.current (scope.settings.resolve scope.settings.templateDir) with
      | .error fault => (.error (.files fault), fs)
      | .ok (some (place, .directory)) =>
        (scope.readTemplates (scope.settings.resolve scope.settings.templateDir) []
          (fileNames fs place) >>= renderTemplates scope.settings v).over fs
      | .ok _ => (.error (.noTemplates
          (scope.settings.resolve scope.settings.templateDir).text), fs) := by
  rw [runTemplate_eq, over_bind _ (filesOnly_renderAt v), over_look]
  cases fs.look scope.host.current (scope.settings.resolve scope.settings.templateDir) with
  | error fault => rfl
  | ok found? =>
    cases found? with
    | none => rfl
    | some found =>
      obtain ⟨place, entry⟩ := found
      cases entry with
      | file bytes => rfl
      | directory =>
        change (Action.files >>= _).over fs = _
        rw [over_bind _ fun files => filesOnly_renderEach v _, over_files]

theorem reads_runTemplate (v : Value) : Reads (runTemplate scope v) := by
  intro fs
  rw [runTemplate_over]
  split
  · rfl
  · exact Reads.bind (filesOnly_renderTemplates _ _) (reads_readTemplates _ _ _)
      (fun templates => (filesFree_renderTemplates _ _ _).reads) fs
  · rfl

/-- Templates that were not written are rendered as before. -/
theorem runTemplate_again (sound : fs.Sound) (sound' : g.Sound) (grown : Grown written fs g)
    (apart : scope.TemplatesApart written g) (v : Value) : Again fs g (runTemplate scope v) := by
  intro x h
  rw [runTemplate_over] at h ⊢
  cases look : fs.look scope.host.current (scope.settings.resolve scope.settings.templateDir) with
  | error fault =>
    rw [look] at h
    cases h
  | ok found? =>
    rw [look] at h
    cases found? with
    | none => cases h
    | some found =>
      obtain ⟨place, entry⟩ := found
      cases entry with
      | file bytes => cases h
      | directory =>
        -- only from a directory are templates read, and it is still one
        obtain ⟨leads, there⟩ := look_eq_some.mp look
        have leads' := grown.follow leads
        have look' := look_eq_some.mpr ⟨leads', grown.directory there⟩
        have untouched := apart place look'
        rw [look']
        dsimp only at h ⊢
        rw [fileNames_again grown sound' untouched]
        refine Again.bind (filesOnly_renderTemplates _ _) (reads_readTemplates _ _ _)
          (readTemplates_again sound grown leads' untouched [] ?_)
          (fun templates _ => (filesFree_renderTemplates _ _ _).again) x h
        intro name mem
        exact (List.mem_filter.mp (List.mem_mergeSort.mp mem)).1

/-! ## Stages that turn values into values -/

/-- The stages that look at no files but the templates, and write none. -/
def passing : List Stage :=
  [.nullFilter, .toJsonString, .fromJsonString, .tracePidSplitter, .template]

/-- A passing stage leaves the files alone, or renders templates. -/
theorem filesFree_or_template (scope : Scope) {s : Stage} (mem : s ∈ passing) (v : Value) :
    FilesFree (s.run scope v) ∨ s.run scope v = runTemplate scope v := by
  cases s with
  | nullFilter => exact .inl (filesFree_pure v)
  | toJsonString =>
    exact .inl (FilesFree.bind (fun text => filesOnly_pure _) (filesFree_ofExcept _ _) fun text =>
      filesFree_pure _)
  | fromJsonString =>
    left
    cases v with
    | text s => exact filesFree_ofExcept _ _
    | _ => exact filesFree_throw _
  | tracePidSplitter => exact .inl (filesFree_runSplitter v)
  | template => exact .inr rfl
  | _ => simp [passing] at mem

theorem reads_run {s : Stage} (mem : s ∈ passing) (v : Value) : Reads (s.run scope v) := by
  rcases filesFree_or_template scope mem v with free | same
  · exact free.reads
  · rw [same]
    exact reads_runTemplate v

/-- A passing stage comes to the same again, if no template was written. -/
theorem run_again (sound : fs.Sound) (sound' : g.Sound) (grown : Grown written fs g)
    (apart : scope.TemplatesApart written g) {s : Stage} (mem : s ∈ passing) (v : Value) :
    Again fs g (s.run scope v) := by
  rcases filesFree_or_template scope mem v with free | same
  · exact free.again
  · rw [same]
    exact runTemplate_again sound sound' grown apart v

theorem filesOnly_run_of_passing {s : Stage} (mem : s ∈ passing) (v : Value) :
    FilesOnly (s.run scope v) := by
  refine filesOnly_run_of_capture v fun captures => ?_
  rcases captures with rfl | rfl <;> simp [passing] at mem

/-! ## Inputs -/

/-- What was written is left out by the search for the files of a pattern: no written file is found
and matched, the search can still be made, and if the pattern leads back it finds what it found. -/
structure Scope.InputsApart (scope : Scope) (pattern : String) (written : List Location)
    (start final : FileSystem) : Prop where
  unselected : ∀ later, final.glob scope.host.current scope.settings.workDir pattern = .ok later →
    ∀ name ∈ later, Pattern.matchesName pattern name = true → ∀ place,
      final.follow scope.host.current (scope.settings.resolve (.ofText name)) = .ok place →
        place ∉ written
  searchable : (∃ names, start.glob scope.host.current scope.settings.workDir pattern = .ok names) →
    ∃ later, final.glob scope.host.current scope.settings.workDir pattern = .ok later
  steady : ".." ∈ (Path.ofText pattern).parts → ∀ names later,
    start.glob scope.host.current scope.settings.workDir pattern = .ok names →
    final.glob scope.host.current scope.settings.workDir pattern = .ok later →
      later.filter (Pattern.matchesName pattern) = names.filter (Pattern.matchesName pattern)

theorem findFiles_over (pattern : String) (fs : FileSystem) :
    (scope.findFiles pattern).over fs =
      (((fs.glob scope.host.current scope.settings.workDir pattern).mapError .glob).map
        (List.filter (Pattern.matchesName pattern)), fs) := by
  have warns : ∀ found : List String, FilesOnly (do
      let names := found.filter (Pattern.matchesName pattern)
      if names.isEmpty then
        Action.log .warning s!"No files in {scope.settings.workDir.text} match '{pattern}'"
      return names : Action (List String)) := by
    intro found
    dsimp only
    split
    · exact (filesOnly_log _ _).bind fun _ => filesOnly_pure _
    · exact filesOnly_pure _
  unfold Scope.findFiles
  rw [over_bind _ fun files => (filesOnly_ofExcept _ _).bind warns, over_files]
  dsimp only
  rw [over_bind _ warns, over_ofExcept]
  cases fs.glob scope.host.current scope.settings.workDir pattern with
  | error problem => rfl
  | ok found =>
    dsimp only [Except.mapError]
    split <;> rfl

theorem reads_findFiles (pattern : String) : Reads (scope.findFiles pattern) := by
  intro fs
  rw [findFiles_over]

/-- What is selected are the names that the search gives and that the pattern matches as a whole. -/
theorem findFiles_over_eq_ok {pattern : String} {fs : FileSystem} {selected : List String} :
    ((scope.findFiles pattern).over fs).1 = .ok selected ↔
      ∃ names, fs.glob scope.host.current scope.settings.workDir pattern = .ok names ∧
        names.filter (Pattern.matchesName pattern) = selected := by
  rw [findFiles_over]
  dsimp only
  rw [map_eq_ok]
  simp only [mapError_eq_ok]

section

variable {final : FileSystem} {pattern : String} (sound : fs.Sound) (sound' : g.Sound)
  (sound'' : final.Sound) (grown : Grown written fs g) (grown' : Grown written g final)
  (apart : scope.InputsApart pattern written fs final)
include sound sound' sound'' grown grown' apart

/-- What has been found is found in between, and what is found in between can be found at the end. -/
theorem glob_between {names : List String}
    (found : fs.glob scope.host.current scope.settings.workDir pattern = .ok names) :
    ∃ mid later, g.glob scope.host.current scope.settings.workDir pattern = .ok mid ∧
      final.glob scope.host.current scope.settings.workDir pattern = .ok later ∧
      names ⊆ mid ∧ mid ⊆ later := by
  obtain ⟨later, last⟩ := apart.searchable ⟨names, found⟩
  obtain ⟨mid, between, mid_later⟩ := glob_subset sound' sound'' grown' last
  obtain ⟨names', first, names_mid⟩ := glob_subset sound sound' grown between
  cases found.symm.trans first
  exact ⟨mid, later, between, last, names_mid, mid_later⟩

/-- The files that were found are found again, and no others. -/
theorem findFiles_again
    (there : fs.isDirectory scope.host.current scope.settings.workDir = true) :
    Again fs g (scope.findFiles pattern) := by
  intro wanted h
  obtain ⟨names, found, rfl⟩ := findFiles_over_eq_ok.mp h
  obtain ⟨mid, later, between, last, names_mid, mid_later⟩ :=
    glob_between sound sound' sound'' grown grown' apart found
  have same : names.filter (Pattern.matchesName pattern) =
      mid.filter (Pattern.matchesName pattern) := by
    refine filter_glob_eq found between _ fun name fits => ⟨fun mem => names_mid mem, fun mem => ?_⟩
    by_cases back : ".." ∈ (Path.ofText pattern).parts
    · -- a pattern that leads back selects at the end what it selected at the start
      have steady := apart.steady back names later found last
      have listed : name ∈ names.filter (Pattern.matchesName pattern) := by
        rw [← steady]
        exact List.mem_filter.mpr ⟨mid_later mem, fits⟩
      exact (List.mem_filter.mp listed).1
    · rcases glob_earlier sound sound' grown found between there back mem with old | new
      · exact old
      · obtain ⟨place, isWritten, leads⟩ := new
        exact absurd isWritten
          (apart.unselected later last name (mid_later mem) fits place (grown'.follow leads))
  rw [findFiles_over, between, same]
  rfl

end

end Stage

end Branchwork
