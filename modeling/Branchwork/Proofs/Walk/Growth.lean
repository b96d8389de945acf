import Branchwork.Proofs.Walk.Basic

/-!
# What a walk leaves

A walk only adds: directories, and the files that it takes down as written (`Left`). What an edge has
made of a mapping it makes of it again, over files to which more has been added, as long as nothing
was added to what the edge reads, and the files that it has written are as it has left them.

Main results:

* `walk_left` — what a walk changes.
* `pass_again`, `pass_refused_again` — an edge that is passed once more.
-/

namespace Branchwork.Walk

open Experiment Action FileSystem Stage

variable {scope : Stage.Scope} {input : Input}

/-! ## Files that a walk works on -/

/-- What a walk takes for granted of the files and the paths that it works with. -/
structure Ready (scope : Stage.Scope) (fs : FileSystem) : Prop where
  sound : fs.Sound
  here : fs.get? scope.host.current = some .directory
  proper : scope.settings.workDir.Proper

/-- What was left behind: nothing but additions, and files in the places that were written. -/
structure Left (scope : Stage.Scope) (fs g : FileSystem) (places : List Location) : Prop where
  grown : Grown places fs g
  ready : Ready scope g
  file : ∀ place ∈ places, ∃ bytes, g.get? place = some (.file bytes)

theorem Left.refl {fs : FileSystem} (ready : Ready scope fs) : Left scope fs fs [] :=
  ⟨.refl _ _, ready, fun _ mem => by cases mem⟩

theorem Left.trans {fs g h : FileSystem} {places more : List Location}
    (first : Left scope fs g places) (second : Left scope g h more) :
    Left scope fs h (places ++ more) := by
  refine ⟨?_, second.ready, fun place mem => ?_⟩
  · exact (first.grown.mono (List.subset_append_left _ _)).trans
      (second.grown.mono (List.subset_append_right _ _))
  · rcases List.mem_append.mp mem with old | new
    · obtain ⟨bytes, file⟩ := first.file place old
      exact second.grown.file file
    · exact second.file place new

/-- A file that was not written since is as it was. -/
theorem Left.get?_eq {fs g : FileSystem} {places : List Location} (left : Left scope fs g places)
    {place : Location} (apart : place ∉ places)
    (file : ∃ bytes, fs.get? place = some (.file bytes)) : g.get? place = fs.get? place := by
  obtain ⟨bytes, file⟩ := file
  rw [file]
  exact (left.grown.apart place apart bytes).mpr file

/-! ## Entries that are written -/

theorem openedPlaces_of_error {name : String} {fs g : FileSystem} {fault : Fault}
    (opens : Opens scope name fs (.error fault) g) : openedPlaces scope (.text name) fs = [] := by
  unfold openedPlaces
  rw [opens.over_eq]
  rfl

theorem openedPlaces_of_ok {name : String} {fs g : FileSystem} {place : Location}
    (opens : Opens scope name fs (.ok place) g) :
    openedPlaces scope (.text name) fs = [place] := by
  have leads := opens.leads
  unfold openedPlaces
  rw [opens.over_eq]
  dsimp only [Except.map]
  rw [leads]
  rfl

theorem openedPlaces_eq {name : String} {data : Value} {fs g : FileSystem}
    {result : Except Fault Value} {places : List Location}
    (stores : Stores scope name data fs result g places) :
    openedPlaces scope (.text name) fs = places := by
  cases stores with
  | refused refused => exact openedPlaces_of_error refused
  | unwritable opened _ | stored opened _ => exact openedPlaces_of_ok opened

/-- The cases tell what writing comes to. -/
theorem writeEach_eq {entries : Mapping} {fs g : FileSystem} {fault? : Option Fault}
    {places : List Location} (writes : Writes scope entries fs fault? g places) :
    writeEach scope entries fs = ⟨fault?, g, places⟩ := by
  induction writes with
  | done => rfl
  | stopped failed => rw [writeEach, failed.over_eq, openedPlaces_eq failed]
  | next stored _ ih =>
    rw [writeEach, stored.over_eq, openedPlaces_eq stored]
    dsimp only
    rw [ih]

theorem exists_writes {entries : Mapping}
    (named : ∀ entry ∈ entries, ∃ name, entry.1 = .text name) (fs : FileSystem) :
    ∃ fault? g places, Writes scope entries fs fault? g places := by
  induction entries generalizing fs with
  | nil => exact ⟨none, fs, [], .done⟩
  | cons entry rest ih =>
    obtain ⟨key, v⟩ := entry
    obtain ⟨name, same⟩ := named _ List.mem_cons_self
    cases same
    obtain ⟨result, g, places, stores⟩ := exists_stores scope name v fs
    cases result with
    | error fault => exact ⟨some fault, g, places, .stopped stores⟩
    | ok stored =>
      obtain ⟨fault?, h, more, writes⟩ :=
        ih (fun entry mem => named entry (List.mem_cons_of_mem _ mem)) g
      exact ⟨fault?, h, places ++ more, .next stores writes⟩

theorem Stores.left {name : String} {data : Value} {fs g : FileSystem}
    {result : Except Fault Value} {places : List Location}
    (stores : Stores scope name data fs result g places) (ready : Ready scope fs) :
    Left scope fs g places :=
  ⟨stores.grown, ⟨stores.sound ready.sound ready.here ready.proper,
    stores.grown.directory ready.here, ready.proper⟩, stores.file⟩

theorem Writes.left {entries : Mapping} {fs g : FileSystem} {fault? : Option Fault}
    {places : List Location} (writes : Writes scope entries fs fault? g places)
    (ready : Ready scope fs) : Left scope fs g places := by
  induction writes with
  | done => exact .refl ready
  | stopped failed => exact Stores.left failed ready
  | next stored _ ih =>
    have first := Stores.left stored ready
    exact first.trans (ih first.ready)

/-! ## Mappings that are written -/

/-- Keys that were renamed are names of files. -/
theorem key_of_renameFrom {pattern target : String} {done entries named : Mapping}
    {sources : List (String × String)} (old : ∀ entry ∈ done, ∃ name, entry.1 = .text name)
    (h : Mapping.renameFrom pattern target done sources entries = .ok named) :
    ∀ entry ∈ named, ∃ name, entry.1 = .text name := by
  induction entries generalizing done sources with
  | nil =>
    rw [Mapping.renameFrom] at h
    cases h
    exact old
  | cons entry rest ih =>
    obtain ⟨key, v⟩ := entry
    cases key with
    | text key =>
      rw [Mapping.renameFrom] at h
      split at h
      · cases h
      · refine ih (fun entry mem => ?_) h
        rcases List.mem_append.mp mem with mem | mem
        · exact old entry mem
        · rw [List.mem_singleton.mp mem]
          exact ⟨_, rfl⟩
    | _ => cases h

/-- A mapping is written over all files, or it is refused before any of them is touched. -/
theorem write_cases (scope : Stage.Scope) (input : Input) (target : String) (entries : Mapping) :
    (∃ fault, entries.rename input.pattern target = .error fault ∧
      ∀ fs, write scope input target entries fs = ⟨some fault, fs, []⟩) ∨
    ∃ named, entries.rename input.pattern target = .ok named ∧
      (∀ fs, ∃ fault? g places, Writes scope named fs fault? g places) ∧
      ∀ fs, write scope input target entries fs = writeEach scope named fs := by
  unfold write
  cases renamed : entries.rename input.pattern target with
  | error fault => exact .inl ⟨fault, rfl, fun _ => rfl⟩
  | ok named =>
    have keys := key_of_renameFrom (fun _ mem => by cases mem) renamed
    exact .inr ⟨named, rfl, exists_writes keys, fun _ => rfl⟩

theorem write_left (target : String) (entries : Mapping) {fs : FileSystem}
    (ready : Ready scope fs) :
    Left scope fs (write scope input target entries fs).files
      (write scope input target entries fs).places := by
  rcases write_cases scope input target entries with ⟨fault, -, refused⟩ | ⟨named, -, writes, same⟩
  · rw [refused]
    exact .refl ready
  · obtain ⟨fault?, g, places, writes⟩ := writes fs
    rw [same, writeEach_eq writes]
    exact Writes.left writes ready

/-- What was written once is written again over files that have only grown since, and is refused where
it was refused. -/
theorem write_rewritten (target : String) (entries : Mapping) {fs later : FileSystem}
    (ready : Ready scope fs) (kept : Kept (write scope input target entries fs).files later) :
    ∃ fault? later', write scope input target entries later =
        ⟨fault?, later', (write scope input target entries fs).places⟩ ∧
      Option.Rel Fault.Alike (write scope input target entries fs).fault? fault? ∧
      Rewritten (write scope input target entries fs).places
        (write scope input target entries fs).files later later' := by
  rcases write_cases scope input target entries with ⟨fault, -, refused⟩ | ⟨named, -, writes, whole⟩
  · rw [refused, refused]
    exact ⟨_, later, rfl, .some (.refl fault), .refl fs later⟩
  · obtain ⟨fault?, g, places, writes⟩ := writes fs
    rw [whole, writeEach_eq writes] at kept
    obtain ⟨fault?', later', again, alike, rewritten⟩ :=
      writes.again ready.sound ready.here ready.proper kept
    rw [whole, whole, writeEach_eq writes, writeEach_eq again]
    exact ⟨fault?', later', rfl, alike, rewritten⟩

/-- Where the files that were written are as they were left nothing changes. -/
theorem write_again (target : String) (entries : Mapping) {fs later : FileSystem}
    (ready : Ready scope fs) (sound : later.Sound)
    (kept : Kept (write scope input target entries fs).files later)
    (same : ∀ place ∈ (write scope input target entries fs).places,
      later.get? place = (write scope input target entries fs).files.get? place) :
    ∃ fault?, write scope input target entries later =
        ⟨fault?, later, (write scope input target entries fs).places⟩ ∧
      Option.Rel Fault.Alike (write scope input target entries fs).fault? fault? := by
  obtain ⟨fault?, later', again, alike, rewritten⟩ := write_rewritten target entries ready kept
  rw [rewritten.eq sound same] at again
  exact ⟨fault?, again, alike⟩

theorem keep_left (input : Input) (edge : Edge) (entries : Mapping) {fs : FileSystem} (ready : Ready scope fs) :
    Left scope fs (keep scope input edge entries fs).files
      (keep scope input edge entries fs).places := by
  unfold keep
  split
  · exact write_left edge.output entries ready
  · exact .refl ready

theorem keep_again (edge : Edge) (entries : Mapping) {fs later : FileSystem}
    (ready : Ready scope fs) (sound : later.Sound)
    (kept : Kept (keep scope input edge entries fs).files later)
    (same : ∀ place ∈ (keep scope input edge entries fs).places,
      later.get? place = (keep scope input edge entries fs).files.get? place) :
    ∃ fault?, keep scope input edge entries later =
        ⟨fault?, later, (keep scope input edge entries fs).places⟩ ∧
      Option.Rel Fault.Alike (keep scope input edge entries fs).fault? fault? := by
  unfold keep at *
  split
  · rename_i materialize
    rw [if_pos materialize] at kept same
    exact write_again edge.output entries ready sound kept same
  · exact ⟨none, rfl, .none⟩

theorem deliver_left (input : Input) (edge : Edge) (entries : Mapping) {fs : FileSystem}
    (ready : Ready scope fs) :
    Left scope fs (deliver scope input edge entries fs).files
      (deliver scope input edge entries fs).places := by
  unfold deliver
  split
  · exact .refl ready
  · exact write_left edge.output entries ready

/-! ## Stages -/

theorem lookup_name (s : Stage) : Registry.builtIn.lookup s.name = .ok s := by
  cases s <;> rfl

theorem applyStage_eq (s : Stage) (entries : Mapping) :
    applyStage scope s.name entries = (do
      let entries ← entries.mapValues (s.run scope)
      return if Pipeline.flattened.contains s.name then entries.joinKeys else entries) := by
  unfold applyStage
  rw [lookup_name s]
  exact pure_bind s _

theorem filesOnly_applyStage {s : Stage} (mem : s ∈ Stage.passing) (entries : Mapping) :
    FilesOnly (applyStage scope s.name entries) := by
  rw [applyStage_eq]
  exact (Mapping.filesOnly_mapValues (filesOnly_run_of_passing mem) entries).bind fun entries =>
    filesOnly_pure _

theorem reads_applyStage {s : Stage} (mem : s ∈ Stage.passing) (entries : Mapping) :
    Reads (applyStage scope s.name entries) := by
  rw [applyStage_eq]
  exact Reads.bind (fun entries => filesOnly_pure _)
    (Mapping.reads_mapValues (filesOnly_run_of_passing mem) (reads_run mem) entries)
    fun entries => (filesFree_pure _).reads

section

variable {stages : List String} (passing : Passing stages)
include passing

theorem filesOnly_applyStages (entries : Mapping) :
    FilesOnly (applyStages scope stages entries) := by
  induction stages generalizing entries with
  | nil => exact filesOnly_pure _
  | cons name rest ih =>
    obtain ⟨s, mem, rfl⟩ := passing name List.mem_cons_self
    exact (filesOnly_applyStage mem entries).bind fun entries =>
      ih (fun name mem => passing name (List.mem_cons_of_mem _ mem)) entries

theorem reads_applyStages (entries : Mapping) : Reads (applyStages scope stages entries) := by
  induction stages generalizing entries with
  | nil => exact (filesFree_pure _).reads
  | cons name rest ih =>
    obtain ⟨s, mem, rfl⟩ := passing name List.mem_cons_self
    have others : Passing rest := fun name mem => passing name (List.mem_cons_of_mem _ mem)
    exact Reads.bind (fun entries => filesOnly_applyStages others entries)
      (reads_applyStage mem entries) fun entries => ih others entries

/-- Stages come to the same mapping again, if no template was written. -/
theorem applyStages_again {written : List Location} {fs g : FileSystem} (sound : fs.Sound)
    (sound' : g.Sound) (grown : Grown written fs g) (apart : scope.TemplatesApart written g)
    (entries : Mapping) : Again fs g (applyStages scope stages entries) := by
  induction stages generalizing entries with
  | nil => exact (filesFree_pure _).again
  | cons name rest ih =>
    obtain ⟨s, mem, rfl⟩ := passing name List.mem_cons_self
    have others : Passing rest := fun name mem => passing name (List.mem_cons_of_mem _ mem)
    refine Again.bind (fun entries => filesOnly_applyStages others entries)
      (reads_applyStage mem entries) ?_ fun entries _ => ih others entries
    rw [applyStage_eq]
    refine Again.bind (fun entries => filesOnly_pure _)
      (Mapping.reads_mapValues (filesOnly_run_of_passing mem) (reads_run mem) entries) ?_
      fun entries _ => (filesFree_pure _).again
    exact Mapping.mapValues_again (filesOnly_run_of_passing mem) (reads_run mem) fun entry _ =>
      run_again sound sound' grown apart mem entry.2

/-! ## Edges -/

/-- The stages of an edge stop it before anything is written, or hand a mapping over. -/
theorem pass_cases (act : Mapping → FileSystem → Written) (entries : Mapping) (fs : FileSystem) :
    (∃ fault, (applyStages scope stages entries).over fs = (.error fault, fs) ∧
      pass scope stages act entries fs = ⟨.error fault, fs, []⟩) ∨
    ∃ behind, (applyStages scope stages entries).over fs = (.ok behind, fs) ∧
      pass scope stages act entries fs =
        ⟨(act behind fs).fault?.elim (.ok behind) .error, (act behind fs).files,
          (act behind fs).places⟩ := by
  have reads : Reads (applyStages scope stages entries) := reads_applyStages passing entries
  unfold pass
  obtain ⟨fault, ran⟩ | ⟨behind, ran⟩ := reads.over_cases fs
  · rw [ran]
    exact .inl ⟨fault, rfl, rfl⟩
  · rw [ran]
    exact .inr ⟨behind, rfl, rfl⟩

theorem pass_left {act : Mapping → FileSystem → Written}
    (left : ∀ behind fs, Ready scope fs →
      Left scope fs (act behind fs).files (act behind fs).places)
    (entries : Mapping) {fs : FileSystem} (ready : Ready scope fs) :
    Left scope fs (pass scope stages act entries fs).files
      (pass scope stages act entries fs).places := by
  rcases pass_cases passing act entries fs with ⟨fault, -, same⟩ | ⟨behind, -, same⟩
  · rw [same]
    exact .refl ready
  · rw [same]
    exact left behind fs ready

end

theorem pass_keep_left {edge : Edge} (passing : Passing edge.stages) (input : Input)
    (entries : Mapping) {fs : FileSystem} (ready : Ready scope fs) :
    Left scope fs (pass scope edge.stages (keep scope input edge) entries fs).files
      (pass scope edge.stages (keep scope input edge) entries fs).places :=
  pass_left passing (fun behind _ => keep_left input edge behind) entries ready

theorem pass_deliver_left {edge : Edge} (passing : Passing edge.stages) (input : Input)
    (entries : Mapping) {fs : FileSystem} (ready : Ready scope fs) :
    Left scope fs (pass scope edge.stages (deliver scope input edge) entries fs).files
      (pass scope edge.stages (deliver scope input edge) entries fs).places :=
  pass_left passing (fun behind _ => deliver_left input edge behind) entries ready

section

variable {edge : Edge} (passing : Passing edge.stages) {written : List Location}
  {fs : FileSystem} {entries : Mapping} (ready : Ready scope fs)
  (wrote : (pass scope edge.stages (keep scope input edge) entries fs).places ⊆ written)
include passing ready wrote

/-- An edge that handed a mapping over hands it over again, and changes nothing by it. -/
theorem pass_again {later : FileSystem} {behind : Mapping}
    (ok : (pass scope edge.stages (keep scope input edge) entries fs).result = .ok behind)
    (sound : later.Sound)
    (grown : Grown written (pass scope edge.stages (keep scope input edge) entries fs).files later)
    (apart : scope.TemplatesApart written later)
    (same : ∀ place ∈ (pass scope edge.stages (keep scope input edge) entries fs).places,
      later.get? place =
        (pass scope edge.stages (keep scope input edge) entries fs).files.get? place) :
    pass scope edge.stages (keep scope input edge) entries later =
      ⟨.ok behind, later, (pass scope edge.stages (keep scope input edge) entries fs).places⟩ := by
  have left := pass_keep_left passing input entries ready
  have whole := (left.grown.mono wrote).trans grown
  rcases pass_cases passing (keep scope input edge) entries fs with
    ⟨fault, -, refused⟩ | ⟨handed, applied, passed⟩
  · rw [refused] at ok
    cases ok
  · -- the stages come to the same mapping, as no template was written in between
    have applied' := applyStages_again passing ready.sound sound whole apart entries handed
      (by rw [applied])
    rw [passed] at ok grown same ⊢
    dsimp only at ok grown same ⊢
    -- what is handed over was written without a fault
    cases faultless : (keep scope input edge handed fs).fault? with
    | some fault =>
      rw [faultless] at ok
      cases ok
    | none =>
      rw [faultless] at ok
      cases ok
      obtain ⟨fault?, again, alike⟩ := keep_again edge behind ready sound grown.toKept same
      rw [faultless] at alike
      cases alike
      unfold pass
      rw [applied']
      dsimp only
      rw [again]
      rfl

/-- An edge that failed fails again, and leaves nothing more behind. -/
theorem pass_refused_again {cause : Fault}
    (failed : (pass scope edge.stages (keep scope input edge) entries fs).result = .error cause)
    (apart : scope.TemplatesApart written
      (pass scope edge.stages (keep scope input edge) entries fs).files) :
    ∃ cause', cause.Alike cause' ∧
      (pass scope edge.stages (keep scope input edge) entries
        (pass scope edge.stages (keep scope input edge) entries fs).files).result =
          .error cause' ∧
      (pass scope edge.stages (keep scope input edge) entries
        (pass scope edge.stages (keep scope input edge) entries fs).files).files =
          (pass scope edge.stages (keep scope input edge) entries fs).files := by
  have left := pass_keep_left passing input entries ready
  rcases pass_cases passing (keep scope input edge) entries fs with
    ⟨fault, applied, refused⟩ | ⟨handed, applied, passed⟩
  · -- the stages stopped the edge, so no file has changed
    rw [refused] at failed ⊢
    cases failed
    dsimp only
    rw [refused]
    exact ⟨cause, .refl cause, rfl, rfl⟩
  · -- the stages went through, so it was the writing that failed
    have applied' := applyStages_again passing ready.sound left.ready.sound
      (left.grown.mono wrote) apart entries handed (by rw [applied])
    rw [passed] at failed left applied' ⊢
    dsimp only at failed left applied' ⊢
    cases fails : (keep scope input edge handed fs).fault? with
    | none =>
      rw [fails] at failed
      cases failed
    | some fault =>
      rw [fails] at failed
      cases failed
      obtain ⟨fault?, again, alike⟩ := keep_again edge handed ready left.ready.sound (.refl _)
        (fun _ _ => rfl)
      rw [fails] at alike
      obtain ⟨alike⟩ := alike
      refine ⟨_, alike, ?_⟩
      unfold pass
      rw [applied']
      dsimp only
      rw [again]
      exact ⟨rfl, rfl⟩

end

/-! ## Walks -/

theorem onward_left {passed : Passed} (leaves : Nat) {below : Mapping → FileSystem → Progress}
    (left : ∀ entries {fs : FileSystem}, Ready scope fs →
      Left scope fs (below entries fs).files (below entries fs).written.flatten)
    (ready : Ready scope passed.files) :
    Left scope passed.files (passed.onward leaves below).files
      (passed.onward leaves below).written.flatten := by
  unfold Passed.onward
  split
  · exact .refl ready
  · exact left _ ready

theorem walk_left {u : Unfolding} (walkable : Walkable u) (input : Input) (entries : Mapping) {fs : FileSystem}
    (ready : Ready scope fs) :
    Left scope fs (walk scope input u entries fs).files
      (walk scope input u entries fs).written.flatten := by
  induction u generalizing entries fs with
  | done => exact .refl ready
  | sink edge rest ih =>
    obtain ⟨passing, walkable⟩ := walkable
    have first := pass_deliver_left passing input entries ready
    exact first.trans (ih walkable entries first.ready)
  | node edge below rest ihBelow ihRest =>
    obtain ⟨passing, -, -, walkableBelow, walkableRest⟩ := walkable
    have first := pass_keep_left passing input entries ready
    have inner := onward_left below.size (ihBelow walkableBelow) first.ready
    have others := ihRest walkableRest entries inner.ready
    rw [walk, List.flatten_cons, List.flatten_append]
    exact first.trans (inner.trans others)

end Branchwork.Walk
