import Branchwork.Pipeline.Run
import Branchwork.Proofs.FilesOnly

/-!
# Steps on files

What a stage, a step or a pipeline comes to depends on nothing but its value and the files, if the
device of the scope sees nothing else. The device of a run is of that kind: it starts a program and
reads what the program wrote.

Main results:

* `filesOnly_run` — steps are actions on files.
* `Capture.filesOnly_device` — so is the device of a run.
-/

namespace Branchwork

open Action

/-! ## Stages -/

namespace Stage

theorem filesOnly_checkPath (p : Path) : FilesOnly (checkPath p) := by
  have checksNull : FilesOnly (if hasNull p.parts then throw (.shape .nullByte) else pure () :
      Action Unit) := by
    split
    · exact filesOnly_throw _
    · exact filesOnly_pure _
  unfold checkPath
  cases Text.unnamable? p.text with
  | some found => exact (filesOnly_throw _).bind fun _ => checksNull
  | none => exact checksNull

theorem filesOnly_readText (scope : Scope) (p : Path) : FilesOnly (scope.readText p) := by
  refine (filesOnly_checkPath p).bind fun _ => ?_
  refine filesOnly_files.bind fun files => ?_
  refine (filesOnly_ofExcept _ _).bind fun bytes => ?_
  exact (filesOnly_ofExcept _ _).bind fun text => filesOnly_pure _

theorem filesOnly_serialize (v : Value) : FilesOnly (serialize v) := by
  unfold serialize
  split
  · exact filesOnly_pure _
  · exact filesOnly_ofExcept _ _

theorem filesOnly_ensureDirectories (scope : Scope) (p : Path) :
    FilesOnly (scope.ensureDirectories p) := by
  refine filesOnly_files.bind fun files => ?_
  dsimp only
  refine (filesOnly_setFiles _).bind fun _ => ?_
  split
  · exact filesOnly_throw _
  · exact filesOnly_pure _

theorem filesOnly_writeBytes (scope : Scope) (p : Path) (bytes : List UInt8) :
    FilesOnly (scope.writeBytes p bytes) := by
  refine filesOnly_files.bind fun files => ?_
  exact (filesOnly_ofExcept _ _).bind fun files => filesOnly_setFiles _

theorem filesOnly_openFile (scope : Scope) (name : Value) : FilesOnly (scope.openFile name) := by
  refine (filesOnly_ofExcept _ _).bind fun p => ?_
  refine (filesOnly_checkPath _).bind fun _ => ?_
  refine (filesOnly_ensureDirectories _ _).bind fun _ => ?_
  refine (filesOnly_checkPath _).bind fun _ => ?_
  exact (filesOnly_writeBytes _ _ _).bind fun _ => filesOnly_pure _

theorem filesOnly_storedText (data : Value) : FilesOnly (storedText data) := by
  refine (filesOnly_serialize data).bind fun text => ?_
  dsimp only
  split
  · exact (filesOnly_throw _).bind fun _ => filesOnly_pure _
  · exact filesOnly_pure _

theorem filesOnly_store (scope : Scope) (name data : Value) : FilesOnly (scope.store name data) := by
  refine (filesOnly_openFile _ _).bind fun p => ?_
  refine (filesOnly_storedText _).bind fun text => ?_
  refine (filesOnly_writeBytes _ _ _).bind fun _ => ?_
  exact (filesOnly_log _ _).bind fun _ => filesOnly_pure _

theorem filesOnly_runToFile (scope : Scope) (v : Value) : FilesOnly (runToFile scope v) := by
  unfold runToFile
  split
  · exact filesOnly_store _ _ _
  · exact filesOnly_store _ _ _
  · exact filesOnly_throw _

theorem filesOnly_showEntries (entries : Mapping) : FilesOnly (showEntries entries) := by
  induction entries with
  | nil => exact filesOnly_pure ()
  | cons entry rest ih =>
    obtain ⟨key, v⟩ := entry
    have shows : FilesOnly (do print (← serialize v); showEntries rest) :=
      (filesOnly_serialize v).bind fun text => (filesOnly_print text).bind fun _ => ih
    unfold showEntries
    split
    · exact shows
    · exact (filesOnly_print _).bind fun _ => shows

theorem filesOnly_runConsole (v : Value) : FilesOnly (runConsole v) := by
  unfold runConsole
  split
  · exact (filesOnly_showEntries _).bind fun _ => filesOnly_pure _
  · exact (filesOnly_serialize _).bind fun text => (filesOnly_print _).bind fun _ => filesOnly_pure _

theorem filesOnly_runSplitter (v : Value) : FilesOnly (runSplitter v) := by
  unfold runSplitter
  split
  · exact filesOnly_throw _
  · exact filesOnly_pure _

theorem filesOnly_readTemplates (scope : Scope) (directory : Path) (read : List (String × String))
    (names : List String) : FilesOnly (scope.readTemplates directory read names) := by
  induction names generalizing read with
  | nil => exact filesOnly_pure read
  | cons name rest ih => exact (filesOnly_readText _ _).bind fun text => ih _

theorem filesOnly_runTemplate (scope : Scope) (v : Value) : FilesOnly (runTemplate scope v) := by
  refine (filesOnly_look _ _).bind fun found => ?_
  split
  · refine filesOnly_files.bind fun files => ?_
    refine (filesOnly_readTemplates _ _ _ _).bind fun templates => ?_
    dsimp only
    have renders : FilesOnly (do
        return .map (← ofExcept .template (renderAll scope.settings v templates)) : Action Value) :=
      (filesOnly_ofExcept _ _).bind fun rendered => filesOnly_pure _
    split
    · exact renders
    · exact (filesOnly_throw _).bind fun _ => renders
  · exact filesOnly_throw _

/-! ## Stages apart from files -/

theorem filesFree_checkPath (p : Path) : FilesFree (checkPath p) := by
  have checksNull : FilesFree (if hasNull p.parts then throw (.shape .nullByte) else pure () :
      Action Unit) := by
    split
    · exact filesFree_throw _
    · exact filesFree_pure _
  unfold checkPath
  cases Text.unnamable? p.text with
  | some found => exact ⟨.error (.halves found), fun _ => rfl⟩
  | none => exact checksNull

theorem filesFree_serialize (v : Value) : FilesFree (serialize v) := by
  unfold serialize
  split
  · exact filesFree_pure _
  · exact filesFree_ofExcept _ _

theorem filesFree_showEntries (entries : Mapping) : FilesFree (showEntries entries) := by
  induction entries with
  | nil => exact filesFree_pure ()
  | cons entry rest ih =>
    obtain ⟨key, v⟩ := entry
    have shows : FilesFree (do print (← serialize v); showEntries rest) := by
      refine FilesFree.bind (fun text => ?_) (filesFree_serialize v) fun text => ?_
      · exact (filesOnly_print text).bind fun _ => filesOnly_showEntries rest
      · exact FilesFree.bind (fun _ => filesOnly_showEntries rest) (filesFree_print text) fun _ => ih
    unfold showEntries
    split
    · exact shows
    · refine FilesFree.bind (fun _ => ?_) (filesFree_print _) fun _ => shows
      exact (filesOnly_serialize v).bind fun text => (filesOnly_print text).bind fun _ =>
        filesOnly_showEntries rest

theorem filesFree_runConsole (v : Value) : FilesFree (runConsole v) := by
  unfold runConsole
  split
  · exact FilesFree.bind (fun _ => filesOnly_pure _) (filesFree_showEntries _) fun _ =>
      filesFree_pure _
  · refine FilesFree.bind (fun text => (filesOnly_print text).bind fun _ => filesOnly_pure _)
      (filesFree_serialize _) fun text => ?_
    exact FilesFree.bind (fun _ => filesOnly_pure _) (filesFree_print text) fun _ => filesFree_pure _

theorem filesFree_runSplitter (v : Value) : FilesFree (runSplitter v) := by
  unfold runSplitter
  split
  · exact filesFree_throw _
  · exact filesFree_pure _

/-! ## All stages -/

/-- A scope whose device, if it has one, sees nothing but the files. -/
def Scope.OnFiles (scope : Scope) : Prop := ∀ address styled, FilesOnly (scope.capture address styled)

/-- A stage sees nothing but the files if it captures nothing, or captures on the files. -/
theorem filesOnly_run_of_capture {scope : Scope} (v : Value) {s : Stage}
    (captures : s = .telemetrySave ∨ s = .telemetrySaveNoStyle → scope.OnFiles) :
    FilesOnly (s.run scope v) := by
  cases s with
  | taggedConsoleOutput => exact filesOnly_runConsole v
  | fileToString =>
    refine (filesOnly_ofExcept _ _).bind fun p => ?_
    exact (filesOnly_readText _ _).bind fun text => filesOnly_pure _
  | fileToJson =>
    refine (filesOnly_ofExcept _ _).bind fun p => ?_
    exact (filesOnly_readText _ _).bind fun text => filesOnly_ofExcept _ _
  | toFile => exact filesOnly_runToFile scope v
  | telemetrySave => exact captures (.inl rfl) v true
  | telemetrySaveNoStyle => exact captures (.inr rfl) v false
  | nullFilter => exact filesOnly_pure v
  | toJsonString => exact (filesOnly_ofExcept _ _).bind fun text => filesOnly_pure _
  | fromJsonString =>
    cases v with
    | text s => exact filesOnly_ofExcept _ _
    | _ => exact filesOnly_throw _
  | tracePidSplitter => exact filesOnly_runSplitter v
  | template => exact filesOnly_runTemplate scope v

theorem filesOnly_run {scope : Scope} (onFiles : scope.OnFiles) (v : Value) (s : Stage) :
    FilesOnly (s.run scope v) :=
  filesOnly_run_of_capture v fun _ => onFiles

end Stage

namespace Capture

theorem filesOnly_outputOf (s : Settings) (result : Script.Result) : FilesOnly (outputOf s result) := by
  unfold outputOf
  dsimp only
  refine .guarded (filesOnly_throw _) ?_
  refine .guarded (filesOnly_log _ _) ?_
  exact .guarded (filesOnly_throw _) (filesOnly_ofExcept _ _)

theorem filesOnly_device (host : Host) (s : Settings) (address : Value) (styled : Bool) :
    FilesOnly (device host s address styled) := by
  cases address with
  | text address =>
    unfold device
    dsimp only
    split
    · exact filesOnly_throw _
    · exact filesOnly_throw _
    · refine filesOnly_files.bind fun files => ?_
      split
      · exact filesOnly_throw _
      · refine (filesOnly_setFiles _).bind fun _ => ?_
        exact (filesOnly_outputOf _ _).bind fun output => filesOnly_ofExcept _ _
  | _ => exact filesOnly_throw _

end Capture

/-! ## Steps -/

theorem Mapping.filesOnly_mapValues {action : Value → Action Value}
    (each : ∀ v, FilesOnly (action v)) (entries : Mapping) :
    FilesOnly (entries.mapValues action) := by
  induction entries with
  | nil => exact filesOnly_pure []
  | cons entry rest ih => exact (each _).bind fun v => ih.bind fun more => filesOnly_pure _

theorem filesOnly_mapItems {action : Value → Action Value} (each : ∀ v, FilesOnly (action v))
    (items : List Value) : FilesOnly (mapItems action items) := by
  induction items with
  | nil => exact filesOnly_pure []
  | cons v rest ih => exact (each v).bind fun v => ih.bind fun more => filesOnly_pure _

theorem Stage.filesOnly_findFiles (scope : Stage.Scope) (pattern : String) :
    FilesOnly (scope.findFiles pattern) := by
  refine filesOnly_files.bind fun files => ?_
  refine (filesOnly_ofExcept _ _).bind fun found => ?_
  dsimp only
  split
  · exact (filesOnly_log _ _).bind fun _ => filesOnly_pure _
  · exact filesOnly_pure _

namespace Step

mutual

theorem filesOnly_run {scope : Stage.Scope} (onFiles : scope.OnFiles) :
    (step : Step) → (v : Value) → FilesOnly (step.run scope v)
  | .const v, _ => by
    rw [run]
    exact filesOnly_pure v
  | .listify, v => by
    rw [run]
    exact filesOnly_pure _
  | .asKeys, v => by
    rw [run]
    refine (filesOnly_ofExcept _ _).bind fun names => ?_
    exact (filesOnly_ofExcept _ _).bind fun entries => filesOnly_pure _
  | .fileNames pattern, _ => by
    rw [run]
    exact (Stage.filesOnly_findFiles scope pattern).bind fun names => filesOnly_pure _
  | .duplicate, v => by
    rw [run]
    exact filesOnly_pure _
  | .onRight step, v => by
    rw [run]
    refine (filesOnly_ofExcept _ _).bind fun pair => ?_
    exact (filesOnly_run onFiles step pair.2).bind fun r => filesOnly_pure _
  | .left, v => by
    rw [run]
    exact filesOnly_ofExcept _ _
  | .rename pattern target, v => by
    rw [run]
    refine (filesOnly_ofExcept _ _).bind fun entries => ?_
    exact (filesOnly_ofExcept _ _).bind fun renamed => filesOnly_pure _
  | .onValues step, v => by
    rw [run]
    refine (filesOnly_ofExcept _ _).bind fun entries => ?_
    exact (Mapping.filesOnly_mapValues (filesOnly_run onFiles step) entries).bind fun mapped =>
      filesOnly_pure _
  | .joinKeys, v => by
    rw [run]
    exact (filesOnly_ofExcept _ _).bind fun entries => filesOnly_pure _
  | .pairs, v => by
    rw [run]
    exact (filesOnly_ofExcept _ _).bind fun entries => filesOnly_pure _
  | .onEach step, v => by
    rw [run]
    refine (filesOnly_ofExcept _ _).bind fun items => ?_
    exact (filesOnly_mapItems (filesOnly_run onFiles step) items).bind fun mapped =>
      filesOnly_pure _
  | .chain _ steps, v => by
    rw [run]
    exact filesOnly_runAll onFiles steps v
  | .stage s, v => by
    rw [run]
    exact Stage.filesOnly_run onFiles v s

theorem filesOnly_runAll {scope : Stage.Scope} (onFiles : scope.OnFiles) :
    (steps : List Step) → (v : Value) → FilesOnly (runAll scope steps v)
  | [], v => by
    rw [runAll]
    exact filesOnly_pure v
  | step :: rest, v => by
    rw [runAll]
    exact (filesOnly_run onFiles step v).bind fun v => filesOnly_runAll onFiles rest v

end

end Step

end Branchwork
