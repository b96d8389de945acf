import Branchwork.Command.Perform
import Branchwork.Proofs.Run.Sequence
import Branchwork.Proofs.Settings.Flags

/-!
# What preparing and building fail with

An experiment that cannot be built is refused: its settings are wrong, a stage is not known, or the
tree has a cycle. Commands are prepared for that. Three things come out beside it, all of them when the
flags are applied or the device is opened: a warning that cannot be written, a flag whose key is no text,
and a checkout whose name is too long to look for. `Escapes` says when.

Main results:

* `build_escapes_iff` — what preparing and building fail with other than a refusal, and when.
* `build_gives_or_refuses` — there are pipelines or a refusal unless something escapes.
-/

namespace Branchwork

open Action Experiment

/-- A fault that an experiment is refused with: it has one of three kinds, and commands are prepared
for it. -/
structure Fault.IsRefusal (fault : Fault) : Prop where
  kind : fault.kind ∈ ["ValidationError", "StageNotFound", "CycleDetected"]
  expected : Command.isBuildFault fault = true

theorem isRefusal_settings (faults : List Settings.Fault) : (Fault.settings faults).IsRefusal :=
  ⟨List.mem_cons_self, rfl⟩

theorem isRefusal_unknownStage (name : String) (known : List String) :
    (Fault.unknownStage name known).IsRefusal :=
  ⟨List.mem_cons_of_mem _ List.mem_cons_self, rfl⟩

theorem isRefusal_cycle (cycle : Cycle) : (Fault.cycle cycle).IsRefusal :=
  ⟨List.mem_cons_of_mem _ (List.mem_cons_of_mem _ List.mem_cons_self), rfl⟩

/-! ## Building -/

namespace Pipeline

/-- A build fails with refusals only. -/
abbrev Refuses {α : Type} (result : Except Fault α) : Prop := FailsWith Fault.IsRefusal result

variable (registry : Registry Stage)

theorem refuses_stageStep (name : String) : Refuses (stageStep registry name) := by
  unfold stageStep
  split
  · exact failsWith_ok _
  · exact failsWith_error (isRefusal_unknownStage _ _)

theorem refuses_writeSteps (input : Input) (target : String) :
    Refuses (writeSteps registry input target) :=
  (refuses_stageStep registry _).bind fun _ _ => failsWith_ok _

theorem refuses_materializeStep (input : Input) (target : String) :
    Refuses (materializeStep registry input target) :=
  (refuses_writeSteps registry input target).bind fun _ _ => failsWith_ok _

theorem refuses_resolve (input : Input) (stage : StageRef) :
    Refuses (resolve registry input stage) := by
  cases stage with
  | materialize target => exact refuses_materializeStep registry input target
  | named name =>
    unfold resolve
    dsimp only
    split
    · exact refuses_materializeStep registry input _
    · exact (refuses_stageStep registry name).bind fun _ _ => failsWith_ok _

theorem refuses_sinkSteps (input : Input) (output : String) :
    Refuses (sinkSteps registry input output) := by
  unfold sinkSteps
  split
  · exact (refuses_stageStep registry _).bind fun _ _ => failsWith_ok _
  · exact refuses_writeSteps registry input output

theorem refuses_build (input : Input) (leaf : Leaf) : Refuses (build registry input leaf) := by
  have source : Refuses (inputSteps registry input) :=
    (refuses_stageStep registry _).bind fun _ _ => failsWith_ok _
  exact source.bind fun _ _ => (failsWith_mapM (refuses_resolve registry input) _).bind fun _ _ =>
    (refuses_sinkSteps registry input _).bind fun _ _ => failsWith_ok _

theorem refuses_buildInputs (tree : Tree) (inputs : List Input) :
    Refuses (buildInputs registry tree inputs) := by
  induction inputs with
  | nil => exact failsWith_ok []
  | cons input rest ih =>
    have leaves : Refuses ((tree.leaves input.identifier).mapError Fault.cycle) := by
      cases tree.leaves input.identifier with
      | ok leaves => exact failsWith_ok _
      | error cycle => exact failsWith_error (isRefusal_cycle cycle)
    have here : Refuses (buildInput registry tree input) :=
      leaves.bind fun _ _ => failsWith_mapM (refuses_build registry input) _
    exact here.bind fun _ _ => ih.bind fun _ _ => failsWith_ok _

end Pipeline

namespace Run

/-! ## Applying flags -/

/-- What flags that cannot be applied stop a run with. -/
def flagFault : Settings.FlagFault → Fault
  | .nameless => .namelessFlag
  | .invalid faults => .settings faults

/-- Logs a warning, if it can be written. -/
def warn : Option String → Action Unit
  | some warning => Action.log .warning warning
  | none => throw .overlong

theorem forM_warn (warnings : List (Option String)) (w : World) :
    ((warnings.forM warn).on w).1 = if none ∈ warnings then .error .overlong else .ok () := by
  induction warnings generalizing w with
  | nil => rfl
  | cons warning rest ih =>
    rw [show (warning :: rest).forM warn = warn warning >>= fun _ => rest.forM warn from rfl, on_bind]
    cases warning with
    | none =>
      rw [if_pos List.mem_cons_self]
      rfl
    | some text =>
      have written : (warn (some text)).on w =
          (.ok (), { w with log := w.log ++ [⟨.warning, text⟩] }) := rfl
      rw [written]
      simpa using ih _

/-- Flags are warned about before they are applied. -/
theorem applyFlags_result (settings : Settings) (flags : Mapping) (w : World) :
    ((applyFlags settings flags).on w).1 =
      if none ∈ settings.warnings flags then .error .overlong
      else (settings.withFlags flags).mapError flagFault := by
  have warned := forM_warn (settings.warnings flags) w
  unfold applyFlags
  rw [on_bind]
  split at warned
  -- the first warning that cannot be written stops everything, whatever the flags say
  · rename_i unwritable
    rw [if_pos unwritable]
    split
    · rename_i ran
      cases warned.symm.trans (congrArg Prod.fst ran)
    · rename_i ran
      cases (congrArg Prod.fst ran).symm.trans warned
      rfl
  · -- all warnings are written, and the check of the flags decides
    rename_i writable
    rw [if_neg writable]
    split
    · cases settings.withFlags flags with
      | ok settings => rfl
      | error fault => cases fault <;> rfl
    · rename_i ran
      cases warned.symm.trans (congrArg Prod.fst ran)

/-- Settings with flags applied are faulty if a flag has no name, or an option is wrong. -/
theorem withFlags_eq_nameless {settings : Settings} {flags : Mapping} :
    settings.withFlags flags = .error .nameless ↔ ∃ flag ∈ flags, flag.1.isText = false := by
  rw [← Settings.named?_eq_none]
  unfold Settings.withFlags
  cases flags with
  | nil => simp [Settings.named?]
  | cons flag rest =>
    rw [if_neg (by simp), Settings.named?_applied, Settings.named?_mapping, Option.bind_some]
    cases Settings.named? (flag :: rest) with
    | none => simp
    | some given =>
      simp only [Option.map_some, reduceCtorEq, iff_false]
      rintro h
      cases made : Settings.ofOptions settings (Table.putAll settings.dump given) <;>
        rw [made] at h <;> cases h

/-! ## Opening the device -/

/-- The place where a path is used is never too long to look for. -/
theorem follow_empty (fs : FileSystem) (current : Location) :
    fs.follow current (.ofText "") = .ok current := by
  have empty : Path.ofText "" = .here := by decide +kernel
  rw [empty]
  rfl

/-- A device cannot be opened if the checkout of the browser cannot be looked for. -/
theorem openDevice_eq_error (host : Host) (settings : Settings) (w : World) (fault : Fault) :
    ((openDevice host settings).on w).1 = .error fault ↔ ∃ checkout found,
      settings.chromium = some checkout ∧
      w.files.look host.current (.ofText checkout) = .error found ∧ fault = .files found := by
  constructor
  -- the device looks at nothing but the files, over which its two ends are known
  · rw [((filesOnly_openDevice host settings).agree w).1]
    intro failed
    rcases openDevice_over host settings w.files with
      opened | ⟨checkout, found, given, looked, lost⟩
    · rw [opened] at failed
      cases failed
    · rw [lost] at failed
      cases failed
      exact ⟨checkout, found, given, looked, rfl⟩
  · rintro ⟨checkout, found, given, looked, rfl⟩
    -- what is given is not the empty text, which leads to where it is used
    have filled : checkout ≠ "" := by
      rintro rfl
      rw [FileSystem.look_eq_error, follow_empty] at looked
      cases looked.1
    have asked : settings.chromium.filter (· ≠ "") = some checkout := by
      rw [given, Option.filter_some, if_pos (by simpa using filled)]
    have lost : (look host.current (.ofText checkout)).on w = (.error (.files found), w) := by
      rw [on_look, looked]
      rfl
    unfold openDevice
    rw [asked]
    dsimp only
    rw [on_bind_error lost]

/-! ## Preparing -/

/-- Preparing a run fails for its flags, or for the checkout of the browser. -/
theorem prepare_eq_error {setup : Setup} {e : Experiment} {w : World} {fault : Fault} :
    ((prepare setup e).on w).1 = .error fault ↔
      (none ∈ setup.settings.warnings e.flags ∧ fault = .overlong) ∨
      none ∉ setup.settings.warnings e.flags ∧
        ((∃ reason, setup.settings.withFlags e.flags = .error reason ∧ fault = flagFault reason) ∨
          ∃ found, CannotLook setup e w.files found ∧ fault = .files found) := by
  have applied := applyFlags_result setup.settings e.flags w
  have files : ((applyFlags setup.settings e.flags).on w).2.files = w.files := by
    obtain ⟨log, same⟩ := applyFlags_onlyLogs setup.settings e.flags w
    rw [same]
  rw [prepare, on_bind]
  rcases ran : (applyFlags setup.settings e.flags).on w with ⟨result, w'⟩
  rw [ran] at applied files
  dsimp only at applied files ⊢
  -- the warnings come first
  by_cases unwritable : none ∈ setup.settings.warnings e.flags
  · rw [if_pos unwritable] at applied
    rw [applied]
    constructor
    · rintro ⟨⟩
      exact .inl ⟨unwritable, rfl⟩
    · rintro (⟨-, rfl⟩ | ⟨writable, -⟩)
      · rfl
      · exact absurd unwritable writable
  -- then the flags are checked
  rw [if_neg unwritable] at applied
  rw [applied, or_iff_right (fun h => unwritable h.1), and_iff_right unwritable]
  cases isApplied : setup.settings.withFlags e.flags with
  | error reason =>
    constructor
    · rintro ⟨⟩
      exact .inl ⟨reason, rfl, rfl⟩
    · rintro (⟨_, ⟨⟩, rfl⟩ | ⟨found, ⟨-, settings, _, isApplied', -⟩, -⟩)
      · rfl
      · cases isApplied.symm.trans isApplied'
  | ok settings =>
    rw [or_iff_right (fun ⟨_, h, _⟩ => nomatch h)]
    dsimp only [Except.mapError]
    by_cases wants : wantsDevice e.flags = true
    · -- behind the flags only the device can fail
      have opening := openDevice_eq_error setup.host settings w' fault
      rw [files] at opening
      rw [if_pos wants, on_bind, on_map]
      constructor
      · intro failed
        cases opened : ((openDevice setup.host settings).on w').1 with
        | error found =>
          rw [opened] at failed opening
          cases failed
          obtain ⟨checkout, found, given, looked, rfl⟩ := opening.mp rfl
          exact ⟨found, ⟨wants, settings, checkout, isApplied, given, looked⟩, rfl⟩
        | ok device =>
          rw [opened] at failed
          cases failed
      · rintro ⟨found, ⟨-, settings', checkout, isApplied', given, looked⟩, rfl⟩
        cases isApplied.symm.trans isApplied'
        rw [opening.mpr ⟨checkout, found, given, looked, rfl⟩]
        rfl
    · -- without a device nothing is left that could fail
      rw [if_neg wants]
      exact ⟨fun h => (nomatch h), fun ⟨_, cannot, _⟩ => absurd cannot.1 wants⟩

/-- Building fails where preparing does, or with a refusal of what has been prepared. -/
theorem build_eq_error {setup : Setup} {e : Experiment} {w : World} {fault : Fault} :
    ((build setup e).on w).1 = .error fault ↔ ((prepare setup e).on w).1 = .error fault ∨
      (∃ scope, ((prepare setup e).on w).1 = .ok scope) ∧
        Pipeline.buildAll setup.registry e = .error fault := by
  rcases prepared : (prepare setup e).on w with ⟨fault' | scope, w'⟩
  · rw [build, on_bind_error prepared]
    constructor
    · rintro ⟨⟩
      exact .inl rfl
    · rintro (⟨⟨⟩⟩ | ⟨⟨scope, ⟨⟩⟩, -⟩)
      rfl
  · rw [build_on prepared]
    cases Pipeline.buildAll setup.registry e <;> simp [Except.map]

/-! ## What escapes -/

/-- What preparing and building fail with other than a refusal. -/
inductive Escapes (setup : Setup) (e : Experiment) (fs : FileSystem) : Fault → Prop
  /-- The warning about a flag that takes the place of a value cannot be written. -/
  | warning : Settings.Unwritable setup.settings.mapping e.flags → Escapes setup e fs .overlong
  /-- The key of a flag is no text. -/
  | nameless {flag} : ¬ Settings.Unwritable setup.settings.mapping e.flags →
      flag ∈ e.flags → flag.1.isText = false → Escapes setup e fs .namelessFlag
  /-- The checkout of the browser cannot be looked for. -/
  | checkout {found} : ¬ Settings.Unwritable setup.settings.mapping e.flags →
      CannotLook setup e fs found → Escapes setup e fs (.files found)

/-- What escapes has none of the kinds of a refusal, and no command is prepared for it. -/
theorem Escapes.unexpected {setup : Setup} {e : Experiment} {fs : FileSystem} {fault : Fault}
    (h : Escapes setup e fs fault) :
    fault.kind ∉ ["ValidationError", "StageNotFound", "CycleDetected"] ∧
      Command.isBuildFault fault = false := by
  cases h with
  | warning => exact ⟨by decide, rfl⟩
  | nameless => exact ⟨by decide, rfl⟩
  | checkout _ cannot =>
    refine ⟨?_, rfl⟩
    rw [Fault.kind, cannot.tooLong]
    decide

/-- What escapes is what preparing and building fail with, and they fail with nothing else but
refusals. -/
theorem build_escapes_iff (setup : Setup) (e : Experiment) (w : World) (fault : Fault) :
    ((build setup e).on w).1 = .error fault ∧ ¬ fault.IsRefusal ↔
      Escapes setup e w.files fault := by
  have writable : none ∈ setup.settings.warnings e.flags ↔
      Settings.Unwritable setup.settings.mapping e.flags := Settings.none_mem_overrideWarnings
  rw [build_eq_error, prepare_eq_error, writable]
  constructor
  -- of all that building fails with, what is no refusal is one of the three
  · rintro ⟨(⟨unwritable, rfl⟩ | ⟨isWritable, ⟨reason, failed, rfl⟩ | ⟨found, cannot, rfl⟩⟩) |
      ⟨-, unbuilt⟩, escapes⟩
    · exact .warning unwritable
    · cases reason with
      | nameless =>
        obtain ⟨flag, mem, noText⟩ := withFlags_eq_nameless.mp failed
        exact .nameless isWritable mem noText
      | invalid faults => exact absurd (isRefusal_settings faults) escapes
    · exact .checkout isWritable cannot
    · exact absurd (Pipeline.refuses_buildInputs _ _ _ fault unbuilt) escapes
  · -- each of the three makes preparing fail
    intro h
    refine ⟨?_, fun refusal => h.unexpected.1 refusal.kind⟩
    cases h with
    | warning unwritable => exact .inl (.inl ⟨unwritable, rfl⟩)
    | nameless isWritable mem noText =>
      have failed : setup.settings.withFlags e.flags = .error .nameless :=
        withFlags_eq_nameless.mpr ⟨_, mem, noText⟩
      exact .inl (.inr ⟨isWritable, .inl ⟨.nameless, failed, rfl⟩⟩)
    | checkout isWritable cannot => exact .inl (.inr ⟨isWritable, .inr ⟨_, cannot, rfl⟩⟩)

/-- Preparing and building an experiment gives its pipelines or a refusal, unless something escapes; and
what escapes is what building fails with. Commands are prepared for the refusals, and for nothing else
that building fails with. -/
theorem build_gives_or_refuses (setup : Setup) (e : Experiment) (w : World) :
    (((∃ built, ((build setup e).on w).1 = .ok built) ∨
        ∃ fault, ((build setup e).on w).1 = .error fault ∧
          fault.kind ∈ ["ValidationError", "StageNotFound", "CycleDetected"] ∧
          Command.isBuildFault fault = true) ↔
      ¬ ∃ fault, Escapes setup e w.files fault) ∧
    ∀ fault, Escapes setup e w.files fault ↔ ((build setup e).on w).1 = .error fault ∧
      (fault.kind ∉ ["ValidationError", "StageNotFound", "CycleDetected"] ∨
        Command.isBuildFault fault = false) := by
  have refuses : ∀ fault : Fault, fault.IsRefusal ↔
      fault.kind ∈ ["ValidationError", "StageNotFound", "CycleDetected"] ∧
        Command.isBuildFault fault = true :=
    fun fault => ⟨fun h => ⟨h.kind, h.expected⟩, fun h => ⟨h.1, h.2⟩⟩
  simp only [← build_escapes_iff setup e w, ← refuses]
  constructor
  · cases ((build setup e).on w).1 with
    | ok built => simp
    | error fault => simp
  · intro fault
    rw [refuses, not_and_or, Bool.not_eq_true]

/-- The number in `flags: {1: 2}` is no name for an option. -/
example : ((Experiment.read "inputs: []\ntree: {}\nflags: {1: 2}" none).toOption.bind fun e =>
    (faultOf ((build ⟨.plain [] [], (Host.plain [] []).settings, .builtIn, false⟩ e).on
      (.start .empty)).1).map Fault.kind) = some "TypeError" := by
  decide +kernel

end Run

end Branchwork
