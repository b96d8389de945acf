import Branchwork.Proofs.Run.Isolation
import Branchwork.Proofs.Run.Starts

/-!
# Inputs in sequence

Nothing goes from the pipelines of one input to those of the next but the files: an experiment with
some inputs and then others comes to what it comes to with the first ones and, in the files that
these have left, with the others.

Two things keep the parts from being quite like the whole. A run that is stopped by a report that the
console refuses does not get to its other inputs. And a run looks for the checkout of the browser
when it starts: behind the first part that may be refused, where a directory has been made in which
the name of the checkout is too long.

Main results:

* `experiment_agrees` — a run sees nothing of the world but its files.
* `inputs_in_sequence` — the parts and the whole.
-/

namespace Branchwork

open Action Experiment

/-! ## Pipelines of inputs in a row -/

namespace Pipeline

theorem buildInputs_append (registry : Registry Stage) (tree : Tree) (xs ys : List Input) :
    buildInputs registry tree (xs ++ ys) = (do
      let first ← buildInputs registry tree xs
      let more ← buildInputs registry tree ys
      return first ++ more) := by
  induction xs with
  | nil =>
    rw [List.nil_append]
    cases buildInputs registry tree ys <;> rfl
  | cons x xs ih =>
    rw [List.cons_append, buildInputs, ih, buildInputs]
    cases buildInput registry tree x with
    | error fault => rfl
    | ok here =>
      cases buildInputs registry tree xs with
      | error fault => rfl
      | ok first =>
        cases buildInputs registry tree ys with
        | error fault => rfl
        | ok more => exact congrArg Except.ok (List.append_assoc here first more).symm

/-- The pipelines of inputs are those of the first ones and then those of the others. -/
theorem buildInputs_append_eq_ok {registry : Registry Stage} {tree : Tree} {xs ys : List Input}
    {pipelines : List Pipeline} :
    buildInputs registry tree (xs ++ ys) = .ok pipelines ↔ ∃ first more,
      buildInputs registry tree xs = .ok first ∧ buildInputs registry tree ys = .ok more ∧
        first ++ more = pipelines := by
  rw [buildInputs_append, bind_eq_ok]
  refine exists_congr fun first => ?_
  rw [bind_eq_ok]
  constructor
  · rintro ⟨okFirst, more, okMore, last⟩
    exact ⟨more, okFirst, okMore, Except.ok.inj last⟩
  · rintro ⟨more, okFirst, okMore, rfl⟩
    exact ⟨okFirst, more, okMore, rfl⟩

theorem each_append (scope : Stage.Scope) (first more : List Pipeline) (fs : FileSystem) :
    each scope (first ++ more) fs =
      each scope first fs ++ each scope more (filesBehind fs (each scope first fs)) := by
  induction first generalizing fs with
  | nil => rfl
  | cons p rest ih =>
    rw [List.cons_append, each, ih, each, filesBehind_cons]
    rfl

theorem filesBehind_append (fs : FileSystem) (first more : List (Outcome × FileSystem)) :
    filesBehind fs (first ++ more) = filesBehind (filesBehind fs first) more := by
  induction first generalizing fs with
  | nil => rfl
  | cons result rest ih => rw [List.cons_append, filesBehind_cons, ih, filesBehind_cons]

end Pipeline

namespace Run

/-! ## Starting over files -/

section

variable (settings : Settings) (flags : Mapping)

theorem filesOnly_applyFlags : FilesOnly (applyFlags settings flags) := by
  unfold applyFlags
  refine (FilesOnly.forM (fun warning? => ?_) _).bind fun _ => ?_
  · cases warning? with
    | none => exact filesOnly_throw _
    | some warning => exact filesOnly_log _ _
  · split
    · exact filesOnly_pure _
    · exact filesOnly_throw _
    · exact filesOnly_throw _

theorem filesFree_applyFlags : FilesFree (applyFlags settings flags) := by
  unfold applyFlags
  refine FilesFree.bind (fun _ => ?_) (FilesFree.forM (fun warning? => ?_) (fun warning? => ?_) _)
    fun _ => ?_
  · split
    · exact filesOnly_pure _
    · exact filesOnly_throw _
    · exact filesOnly_throw _
  · cases warning? with
    | none => exact filesOnly_throw _
    | some warning => exact filesOnly_log _ _
  · cases warning? with
    | none => exact filesFree_throw _
    | some warning => exact filesFree_log _ _
  · split
    · exact filesFree_pure _
    · exact filesFree_throw _
    · exact filesFree_throw _

end

theorem applyFlags_eq_ok {settings settings' : Settings} {flags : Mapping} {fs fs' : FileSystem}
    (h : (applyFlags settings flags).over fs = (.ok settings', fs')) :
    settings.withFlags flags = .ok settings' := by
  obtain ⟨w, h, -⟩ := on_of_over h
  unfold applyFlags at h
  -- behind the messages on the flags their values are applied
  obtain ⟨_, mid, -, h⟩ := on_bind_eq_ok.mp h
  split at h
  · rename_i applied
    cases h
    exact applied
  · cases h
  · cases h

theorem filesOnly_announce (host : Host) (settings : Settings) : FilesOnly (do
    log .info s!"Telemetry device ready (browser={settings.saveBrowser})"
    return Capture.device host settings) :=
  (filesOnly_log _ _).bind fun _ => filesOnly_pure _

/-- What is done once the checkout of the browser was looked for. -/
theorem filesOnly_announceLooked (host : Host) (settings : Settings) (checkout : String)
    (found : Option (Location × FileSystem.Entry)) : FilesOnly (do
      unless found.any (·.2 = .directory) do
        log .warning s!"Chromium checkout not found: {checkout}"
      log .info s!"Telemetry device ready (browser={settings.saveBrowser})"
      return Capture.device host settings) := by
  dsimp only
  split
  · exact filesOnly_announce host settings
  · exact (filesOnly_log _ _).bind fun _ => filesOnly_announce host settings

theorem filesOnly_openDevice (host : Host) (settings : Settings) :
    FilesOnly (openDevice host settings) := by
  unfold openDevice
  split
  · exact (filesOnly_look _ _).bind (filesOnly_announceLooked host settings _)
  · exact filesOnly_announce host settings

/-- A device is opened unless the checkout of the browser cannot be looked for. -/
theorem openDevice_over (host : Host) (settings : Settings) (fs : FileSystem) :
    (openDevice host settings).over fs = (.ok (Capture.device host settings), fs) ∨
      ∃ checkout fault, settings.chromium = some checkout ∧
        fs.look host.current (.ofText checkout) = .error fault ∧
        (openDevice host settings).over fs = (.error (.files fault), fs) := by
  unfold openDevice
  split
  · rename_i checkout isGiven
    rw [over_bind _ (filesOnly_announceLooked host settings checkout), over_look]
    -- a directory that is missing is only warned about
    cases found : fs.look host.current (.ofText checkout) with
    | error fault => exact .inr ⟨checkout, fault, (Option.filter_eq_some_iff.mp isGiven).1, found, rfl⟩
    | ok found =>
      left
      dsimp only [Except.mapError]
      split <;> rfl
  · exact .inl rfl

/-- What is done once the flags were applied. -/
theorem filesOnly_equip (host : Host) (flags : Mapping) (settings : Settings) : FilesOnly (do
    let device ← if wantsDevice flags then some <$> openDevice host settings else pure none
    return (⟨settings, host, device⟩ : Stage.Scope)) := by
  split
  · exact ((filesOnly_openDevice _ _).map some).bind fun _ => filesOnly_pure _
  · exact (filesOnly_pure none).bind fun _ => filesOnly_pure _

theorem filesOnly_prepare (setup : Setup) (e : Experiment) : FilesOnly (prepare setup e) :=
  (filesOnly_applyFlags _ _).bind (filesOnly_equip setup.host e.flags)

/-- The flags ask for a device, and the checkout of the browser cannot be looked for. -/
def CannotLook (setup : Setup) (e : Experiment) (fs : FileSystem) (fault : FileSystem.Fault) :
    Prop :=
  wantsDevice e.flags = true ∧ ∃ settings checkout,
    setup.settings.withFlags e.flags = .ok settings ∧ settings.chromium = some checkout ∧
      fs.look setup.host.current (.ofText checkout) = .error fault

/-- Only a name that is too long keeps a path from being looked for. -/
theorem CannotLook.tooLong {setup : Setup} {e : Experiment} {fs : FileSystem}
    {fault : FileSystem.Fault} (h : CannotLook setup e fs fault) : fault.reason = .nameTooLong := by
  obtain ⟨-, -, checkout, -, -, looked⟩ := h
  obtain ⟨-, rfl⟩ := FileSystem.look_eq_error.mp looked
  rfl

/-- What has been prepared once is prepared alike over other files, unless the checkout cannot be
looked for there. -/
theorem prepare_again {setup : Setup} {e : Experiment} {fs fs' : FileSystem} {scope : Stage.Scope}
    (h : (prepare setup e).over fs = (.ok scope, fs')) (g : FileSystem) :
    (prepare setup e).over g = (.ok scope, g) ∨ ∃ fault, CannotLook setup e g fault ∧
      (prepare setup e).over g = (.error (.files fault), g) := by
  unfold prepare at h ⊢
  rw [over_bind _ (filesOnly_equip setup.host e.flags)] at h ⊢
  -- the flags come to the same over any files
  rcases applied : (applyFlags setup.settings e.flags).over fs with ⟨fault | settings, mid⟩
  · rw [applied] at h
    cases h
  · have isApplied := applyFlags_eq_ok applied
    rw [(filesFree_applyFlags _ _).over_eq applied g]
    rw [applied] at h
    dsimp only at h ⊢
    by_cases wants : wantsDevice e.flags = true
    · have give : ∀ device : Option Device,
          FilesOnly (pure (⟨settings, setup.host, device⟩ : Stage.Scope)) :=
        fun _ => filesOnly_pure _
      rw [if_pos wants, over_bind _ give, over_map] at h ⊢
      rcases openDevice_over setup.host settings g with opened | ⟨checkout, fault, given, looked, lost⟩
      · rcases openDevice_over setup.host settings mid with before | ⟨_, _, _, _, before⟩
        · rw [before] at h
          cases h
          rw [opened]
          exact .inl rfl
        · rw [before] at h
          cases h
      · rw [lost]
        exact .inr ⟨fault, ⟨wants, settings, checkout, isApplied, given, looked⟩, rfl⟩
    · rw [if_neg wants] at h ⊢
      cases h
      exact .inl rfl

/-! ## Runs over files -/

/-- The pipelines of an experiment can be built in the files. -/
def Builds (setup : Setup) (e : Experiment) (fs : FileSystem) : Prop :=
  ∃ built, ((build setup e).over fs).1 = .ok built

theorem prepare_over_files (setup : Setup) (e : Experiment) (fs : FileSystem) :
    ((prepare setup e).over fs).2 = fs := by
  obtain ⟨log, same⟩ := prepare_onlyLogs setup e (.start fs)
  rw [Action.over, same]
  rfl

theorem builds_iff {setup : Setup} {e : Experiment} {fs : FileSystem} :
    Builds setup e fs ↔ (∃ scope, (prepare setup e).over fs = (.ok scope, fs)) ∧
      ∃ pipelines, Pipeline.buildAll setup.registry e = .ok pipelines := by
  constructor
  · rintro ⟨⟨scope, pipelines⟩, isBuilt⟩
    obtain ⟨w, ran, -⟩ := on_of_over (Prod.ext isBuilt rfl)
    obtain ⟨prepared, built⟩ := build_eq_ok ran
    refine ⟨⟨scope, Prod.ext ?_ (prepare_over_files setup e fs)⟩, pipelines, built⟩
    rw [Action.over, prepared]
  · rintro ⟨⟨scope, prepared⟩, pipelines, built⟩
    obtain ⟨w, ran, -⟩ := on_of_over prepared
    refine ⟨(scope, pipelines), ?_⟩
    rw [Action.over, build_on ran, built]
    rfl

section

variable {setup : Setup} {e : Experiment} {fs : FileSystem} {scope : Stage.Scope}
  {pipelines : List Pipeline} (prepared : (prepare setup e).over fs = (.ok scope, fs))
  (built : Pipeline.buildAll setup.registry e = .ok pipelines)
include prepared built

theorem experiment_over
    (fine : ∀ r ∈ Pipeline.each scope pipelines fs, ∀ problem, ¬ Refused r.1 problem) :
    (experiment setup e).over fs = (.ok ⟨pipelines.length,
        (Pipeline.each scope pipelines fs).filterMap (·.1.failure)⟩,
      Pipeline.filesBehind fs (Pipeline.each scope pipelines fs)) := by
  obtain ⟨w, ran, -⟩ := on_of_over prepared
  obtain ⟨result, final, ended, rfl, moved⟩ := experiment_ends ran built fine
  rw [Action.over, ended]
  exact Prod.ext rfl moved.files_eq

theorem experiment_over_refused {before behind : List (Outcome × FileSystem)}
    {r : Outcome × FileSystem} {problem : Markup.Problem}
    (split : Pipeline.each scope pipelines fs = before ++ r :: behind)
    (fine : ∀ r' ∈ before, ∀ problem, ¬ Refused r'.1 problem) (refused : Refused r.1 problem) :
    (experiment setup e).over fs = (.error (.markup problem), r.2) := by
  obtain ⟨w, ran, -⟩ := on_of_over prepared
  obtain ⟨final, stopped, moved⟩ := experiment_stops ran built split fine refused
  rw [Action.over, stopped]
  exact Prod.ext rfl moved.files_eq

/-- A run goes through all of its pipelines, or is stopped by the first report that is refused. -/
theorem experiment_over_cases :
    ((∀ r ∈ Pipeline.each scope pipelines fs, ∀ problem, ¬ Refused r.1 problem) ∧
      (experiment setup e).over fs = (.ok ⟨pipelines.length,
        (Pipeline.each scope pipelines fs).filterMap (·.1.failure)⟩,
        Pipeline.filesBehind fs (Pipeline.each scope pipelines fs))) ∨
    ∃ before r behind problem, Pipeline.each scope pipelines fs = before ++ r :: behind ∧
      (∀ r' ∈ before, ∀ problem, ¬ Refused r'.1 problem) ∧ Refused r.1 problem ∧
      (experiment setup e).over fs = (.error (.markup problem), r.2) := by
  by_cases fine : ∀ r ∈ Pipeline.each scope pipelines fs, ∀ problem, ¬ Refused r.1 problem
  · exact .inl ⟨fine, experiment_over prepared built fine⟩
  · -- of the reports that are refused the first one counts
    obtain ⟨before, r, behind, problem, split, before_fine, refused⟩ := exists_first_refused fine
    exact .inr ⟨before, r, behind, problem, split, before_fine, refused,
      experiment_over_refused prepared built split before_fine refused⟩

end

/-- A run that cannot be prepared fails with the fault of that. -/
theorem experiment_over_unprepared {setup : Setup} {e : Experiment} {fs : FileSystem}
    {fault : Fault} (failed : (prepare setup e).over fs = (.error fault, fs)) :
    (experiment setup e).over fs = (.error fault, fs) := by
  obtain ⟨w, ran, files⟩ := on_of_over failed
  have stopped : (build setup e).on (.start fs) = (.error fault, w) := by
    rw [build, on_bind_error ran]
  rw [Action.over, experiment, on_bind_error stopped, files]

/-- What a run comes to, and the files that it leaves, are decided by the files that it starts
from. -/
theorem experiment_agrees (setup : Setup) (e : Experiment) (w : World) :
    ((experiment setup e).on w).1 = ((experiment setup e).over w.files).1 ∧
      ((experiment setup e).on w).2.files = ((experiment setup e).over w.files).2 := by
  have agree := (filesOnly_prepare setup e).agree w
  have same := prepare_over_files setup e w.files
  rcases prepared : (prepare setup e).on w with ⟨fault | scope, w'⟩
  · -- no pipeline is built
    rw [prepared] at agree
    obtain ⟨failed, files⟩ := agree
    obtain ⟨v, ran, sameFiles⟩ := on_of_over (Prod.ext failed.symm same)
    have stops : ∀ {w w'}, (prepare setup e).on w = (.error fault, w') →
        (experiment setup e).on w = (.error fault, w') := by
      intro w w' failed
      rw [experiment, on_bind_error]
      rw [build, on_bind_error failed]
    rw [Action.over, stops prepared, stops ran]
    exact ⟨rfl, files.trans (same.trans sameFiles.symm)⟩
  · rw [prepared] at agree
    obtain ⟨ok, files⟩ := agree
    have begins : (prepare setup e).over w.files = (.ok scope, w.files) := Prod.ext ok.symm same
    cases built : Pipeline.buildAll setup.registry e with
    | error fault =>
      -- no pipeline is run
      obtain ⟨v, ran, sameFiles⟩ := on_of_over begins
      have stops : ∀ {w w'}, (prepare setup e).on w = (.ok scope, w') →
          (experiment setup e).on w = (.error fault, w') := by
        intro w w' prepared
        rw [experiment, on_bind_error]
        rw [build_on prepared, built]
        rfl
      rw [Action.over, stops prepared, stops ran]
      exact ⟨rfl, files.trans (same.trans sameFiles.symm)⟩
    | ok pipelines =>
      rcases experiment_over_cases begins built with
        ⟨fine, ended⟩ | ⟨before, r, behind, problem, split, fine, refused, stopped⟩
      · obtain ⟨result, final, ran, rfl, moved⟩ := experiment_ends prepared built fine
        rw [ran, ended]
        exact ⟨rfl, moved.files_eq⟩
      · obtain ⟨final, ran, moved⟩ := experiment_stops prepared built split fine refused
        rw [ran, stopped]
        exact ⟨rfl, moved.files_eq⟩

/-! ## The parts and the whole -/

section

variable {setup : Setup} {e : Experiment} {xs ys : List Input} {fs : FileSystem}

/-- Inputs are built together just when each part of them is built. -/
theorem builds_append_iff : Builds setup { e with inputs := xs ++ ys } fs ↔
    Builds setup { e with inputs := xs } fs ∧ Builds setup { e with inputs := ys } fs := by
  simp only [builds_iff]
  have whole : (∃ pipelines, Pipeline.buildInputs setup.registry e.tree (xs ++ ys) = .ok pipelines) ↔
      (∃ first, Pipeline.buildInputs setup.registry e.tree xs = .ok first) ∧
        ∃ more, Pipeline.buildInputs setup.registry e.tree ys = .ok more := by
    constructor
    · rintro ⟨pipelines, built⟩
      obtain ⟨first, more, okFirst, okMore, -⟩ := Pipeline.buildInputs_append_eq_ok.mp built
      exact ⟨⟨first, okFirst⟩, more, okMore⟩
    · rintro ⟨⟨first, okFirst⟩, more, okMore⟩
      exact ⟨_, Pipeline.buildInputs_append_eq_ok.mpr ⟨first, more, okFirst, okMore, rfl⟩⟩
  -- the inputs are not looked at before the pipelines are built
  constructor
  · rintro ⟨prepared, built⟩
    obtain ⟨okFirst, okMore⟩ := whole.mp built
    exact ⟨⟨prepared, okFirst⟩, prepared, okMore⟩
  · rintro ⟨⟨prepared, okFirst⟩, -, okMore⟩
    exact ⟨prepared, whole.mpr ⟨okFirst, okMore⟩⟩

end

/-- Pipelines none of whose reports is refused are followed by others as by a run of their own. -/
theorem experiment_over_append {setup : Setup} {whole others : Experiment} {fs : FileSystem}
    {scope : Stage.Scope} {first more : List Pipeline}
    (prepared : (prepare setup whole).over fs = (.ok scope, fs))
    (built : Pipeline.buildAll setup.registry whole = .ok (first ++ more))
    (fine : ∀ r ∈ Pipeline.each scope first fs, ∀ problem, ¬ Refused r.1 problem)
    {mid : FileSystem} (isMid : Pipeline.filesBehind fs (Pipeline.each scope first fs) = mid)
    (again : (prepare setup others).over mid = (.ok scope, mid))
    (okMore : Pipeline.buildAll setup.registry others = .ok more) :
    (∃ second last, (experiment setup others).over mid = (.ok second, last) ∧
      (experiment setup whole).over fs = (.ok ⟨first.length + second.pipelines,
        (Pipeline.each scope first fs).filterMap (·.1.failure) ++ second.failures⟩, last)) ∨
    ∃ problem last, (experiment setup others).over mid = (.error (.markup problem), last) ∧
      (experiment setup whole).over fs = (.error (.markup problem), last) := by
  -- the pipelines of the others start from the files that the first ones have left
  have all := Pipeline.each_append scope first more fs
  rw [isMid] at all
  rcases experiment_over_cases again okMore with
    ⟨fine', ended⟩ | ⟨before, r, behind, problem, split, fine', refused, stopped⟩
  · left
    refine ⟨_, _, ended, ?_⟩
    rw [experiment_over prepared built fun r mem => ?_, all, List.length_append,
      List.filterMap_append, Pipeline.filesBehind_append, isMid]
    rw [all, List.mem_append] at mem
    exact mem.elim (fine r) (fine' r)
  · -- in the whole run the pipelines of the first part stand before the report
    right
    refine ⟨problem, _, stopped, ?_⟩
    have split' : Pipeline.each scope (first ++ more) fs =
        (Pipeline.each scope first fs ++ before) ++ r :: behind := by
      rw [all, split, List.append_assoc]
    refine experiment_over_refused prepared built split' (fun r' mem => ?_) refused
    exact (List.mem_append.mp mem).elim (fine r') (fine' r')

/-- An experiment builds exactly if it builds with each part of its inputs. If the run with the first
inputs gives its result, then the run with all of them gives what the run with the others gives that is
started from the files left: together they ran all the pipelines, with the failures of the one and then
of the other, and leave the same files. Where either of them is stopped by a report, the run with all
of the inputs is stopped there too, which takes a label with an opening bracket. The others are also
built behind the first run, unless the name of the checkout has become too long to look for. -/
theorem inputs_in_sequence (setup : Setup) (e : Experiment) (xs ys : List Input)
    (fs : FileSystem) :
    (Builds setup { e with inputs := xs ++ ys } fs ↔
      Builds setup { e with inputs := xs } fs ∧ Builds setup { e with inputs := ys } fs) ∧
    (Builds setup { e with inputs := xs ++ ys } fs →
      (∀ first mid, (experiment setup { e with inputs := xs }).over fs = (.ok first, mid) →
        (∀ second last,
          (experiment setup { e with inputs := ys }).over mid = (.ok second, last) →
          (experiment setup { e with inputs := xs ++ ys }).over fs =
            (.ok ⟨first.pipelines + second.pipelines, first.failures ++ second.failures⟩, last)) ∧
        (Builds setup { e with inputs := ys } mid → ∀ fault last,
          (experiment setup { e with inputs := ys }).over mid = (.error fault, last) →
          (∃ problem, fault = .markup problem) ∧
            (experiment setup { e with inputs := xs ++ ys }).over fs = (.error fault, last)) ∧
        (¬ Builds setup { e with inputs := ys } mid →
          ∃ fault, CannotLook setup e mid fault ∧ fault.reason = .nameTooLong)) ∧
      (∀ fault mid, (experiment setup { e with inputs := xs }).over fs = (.error fault, mid) →
        (∃ problem, fault = .markup problem) ∧
          (experiment setup { e with inputs := xs ++ ys }).over fs = (.error fault, mid)) ∧
      ∀ pipelines, Pipeline.buildInputs setup.registry e.tree (xs ++ ys) = .ok pipelines →
        (∀ p ∈ pipelines, '[' ∉ p.label.toList) →
        ∃ result final,
          (experiment setup { e with inputs := xs ++ ys }).over fs = (.ok result, final)) := by
  refine ⟨builds_append_iff, fun builds => ?_⟩
  obtain ⟨⟨scope, prepared⟩, pipelines, built⟩ := builds_iff.mp builds
  have quiet : ∀ pipelines', Pipeline.buildInputs setup.registry e.tree (xs ++ ys) = .ok pipelines' →
      (∀ p ∈ pipelines', '[' ∉ p.label.toList) → ∃ result final,
        (experiment setup { e with inputs := xs ++ ys }).over fs = (.ok result, final) := by
    intro pipelines' built' labels
    obtain ⟨w, ran, -⟩ := on_of_over prepared
    exact ⟨_, _, experiment_over prepared built'
      (not_refused_of_labels (prepare_onFiles ran) fs labels)⟩
  obtain ⟨first, more, okFirst, okMore, rfl⟩ := Pipeline.buildInputs_append_eq_ok.mp built
  rcases experiment_over_cases (e := { e with inputs := xs }) prepared okFirst with
    ⟨fine, ended⟩ | ⟨before, r, behind, problem, split, fine, refused, stopped⟩
  · -- the first part gives its result
    refine ⟨fun first' mid ran => ?_, fun fault mid ran => ?_, quiet⟩
    · rw [ended] at ran
      cases ran
      generalize isMid : Pipeline.filesBehind fs (Pipeline.each scope first fs) = mid at *
      rcases prepare_again (e := { e with inputs := ys }) prepared mid with
        again | ⟨fault, cannot, failed⟩
      · have okMore' : Pipeline.buildAll setup.registry { e with inputs := ys } = .ok more := okMore
        have joined := experiment_over_append prepared built fine isMid again okMore'
        refine ⟨fun second last ran => ?_, fun _ fault last ran => ?_,
          fun never => absurd (builds_iff.mpr ⟨⟨scope, again⟩, more, okMore⟩) never⟩
        · rcases joined with ⟨second', last', ran', whole⟩ | ⟨problem, last', ran', -⟩
          · rw [ran'] at ran
            cases ran
            exact whole
          · rw [ran'] at ran
            cases ran
        · rcases joined with ⟨second', last', ran', -⟩ | ⟨problem, last', ran', whole⟩
          · rw [ran'] at ran
            cases ran
          · rw [ran'] at ran
            cases ran
            exact ⟨⟨problem, rfl⟩, whole⟩
      · -- behind the first part the others are not started
        refine ⟨fun second last ran => ?_, fun builds => ?_, fun _ => ⟨fault, cannot, cannot.tooLong⟩⟩
        · rw [experiment_over_unprepared failed] at ran
          cases ran
        · obtain ⟨⟨scope', again⟩, -⟩ := builds_iff.mp builds
          rw [again] at failed
          cases failed
    · rw [ended] at ran
      cases ran
  · -- a report that is refused in the first part stops both runs
    refine ⟨fun first mid ran => ?_, fun fault mid ran => ?_, quiet⟩
    · rw [stopped] at ran
      cases ran
    · rw [stopped] at ran
      cases ran
      have split' : Pipeline.each scope (first ++ more) fs = before ++ r :: (behind ++
          Pipeline.each scope more (Pipeline.filesBehind fs (Pipeline.each scope first fs))) := by
        rw [Pipeline.each_append, split, List.append_assoc, List.cons_append]
      exact ⟨⟨problem, rfl⟩, experiment_over_refused prepared built split' fine refused⟩

end Run

end Branchwork
