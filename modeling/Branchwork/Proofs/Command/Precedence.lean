import Branchwork.Proofs.Command.Flags
import Branchwork.Proofs.Command.Strict
import Branchwork.Proofs.Command.Startup
import Branchwork.Proofs.Run.Escapes
import Branchwork.Proofs.Settings.Options

/-!
# Where options come from

The pipelines of a call of `run` work with settings that come from six places. The flags of the
experiment come first, then the working directory and the flags of the command line; what none of
these sets comes from a variable of the process, from the environment file, or is built in. The values
of the first three are checked and the others are taken as they are.

Main result: `Call.sources_in_order`.
-/

namespace Branchwork

open Action

namespace Settings

/-! ## Options that are inherited -/

/-- The variables that stand for options. -/
def variableNames : List (String × String) :=
  [("chromium", "TREEFLOW_CHROMIUM"), ("save_browser", "TREEFLOW_SAVE_BROWSER"),
    ("python", "TREEFLOW_PYTHON"), ("telemetry_dir", "TREEFLOW_TELEMETRY_DIR"),
    ("template_dir", "TREEFLOW_TEMPLATE_DIR")]

/-- The value that the text of a variable stands for. -/
def ofVariable (name text : String) : Value :=
  if name ∈ ["telemetry_dir", "template_dir"] then .path (.ofText text) else .text text

/-- The values that are built in. -/
def builtIn (current : Path) : List (String × Value) :=
  [("work_dir", .path current), ("chromium", .null), ("save_browser", .text "system"),
    ("python", .text "python"), ("telemetry_dir", .path (.ofText "telemetry")),
    ("telemetry_timeout", .float (.ofInt 300)), ("template_dir", .path (.ofText "templates"))]

/-- The value of an option that nobody gives. -/
def inherited (value? : String → Option String) (current : Path) (name : String) : Option Value :=
  ((variableNames.lookup name).bind fun known => (value? known).map (ofVariable name)).or
    ((builtIn current).lookup name)

theorem ofEnvironment_fields (env : Environment) (current : Path) (name : String) :
    (ofEnvironment env current).fields.lookup name = inherited env.get? current name := by
  -- a variable that is set comes before what is built in
  have text : ∀ name default, some (Value.text ((env.get? name).getD default)) =
      ((env.get? name).map Value.text).or (some (.text default)) := by
    intro name default
    cases env.get? name <;> rfl
  have path : ∀ name default, some (Value.path (.ofText ((env.get? name).getD default))) =
      ((env.get? name).map fun text => Value.path (.ofText text)).or
        (some (.path (.ofText default))) := by
    intro name default
    cases env.get? name <;> rfl
  -- the fields are seven, and each of them has its own variable or none
  by_cases mem : name ∈ fieldNames
  · simp only [fieldNames, List.mem_cons, List.not_mem_nil, or_false] at mem
    rcases mem with rfl | rfl | rfl | rfl | rfl | rfl | rfl
    · rfl
    · show some ((env.get? "TREEFLOW_CHROMIUM").elim Value.null Value.text) =
        ((env.get? "TREEFLOW_CHROMIUM").map Value.text).or (some Value.null)
      cases env.get? "TREEFLOW_CHROMIUM" <;> rfl
    · exact text "TREEFLOW_SAVE_BROWSER" "system"
    · exact text "TREEFLOW_PYTHON" "python"
    · exact path "TREEFLOW_TELEMETRY_DIR" "telemetry"
    · rfl
    · exact path "TREEFLOW_TEMPLATE_DIR" "templates"
  · -- no variable stands for such an option, and nothing is built in
    have unknown : variableNames.lookup name = none ∧ (builtIn current).lookup name = none := by
      simp only [fieldNames, List.mem_cons, List.not_mem_nil, or_false, not_or] at mem
      simp [variableNames, builtIn, lookup_cons_if, mem]
    rw [lookup_fields_of_not_mem mem, inherited, unknown.1, unknown.2]
    rfl

end Settings

namespace Run

/-- The settings that pipelines work with are those of the setup with the flags of the experiment. -/
theorem prepare_settings {setup : Setup} {e : Experiment} {w w' : World} {scope : Stage.Scope}
    (h : (prepare setup e).on w = (.ok scope, w')) :
    setup.settings.withFlags e.flags = .ok scope.settings := by
  unfold prepare at h
  obtain ⟨settings, mid, applied, ended⟩ := on_bind_eq_ok.mp h
  have isApplied := applyFlags_result setup.settings e.flags w
  rw [applied] at isApplied
  have same : scope.settings = settings := by
    dsimp only at ended
    split at ended
    · obtain ⟨device, v, -, ended⟩ := on_bind_eq_ok.mp ended
      cases ended
      rfl
    · obtain ⟨device, v, -, ended⟩ := on_bind_eq_ok.mp ended
      cases ended
      rfl
  rw [same]
  split at isApplied
  · cases isApplied
  · exact mapError_eq_ok.mp isApplied.symm

end Run

namespace Command

/-! ## Flags of the command line -/

/-- The setup of a run takes the working directory and the flags of the command line, the directory
first. -/
theorem setupOf_takes {host : Host} {workDir : Option String} {flags : List String}
    {verbose : Bool} {w w' : World} {setup : Run.Setup}
    (h : (setupOf host workDir flags verbose).on w = (.ok setup, w')) :
    ∃ given, flags.mapM readFlag = .ok given ∧ ∀ name,
      Settings.Takes name
        ((if name = "work_dir" then (workDir.filter (· ≠ "")).map fun text => .path (.ofText text)
          else none).or (given.reverse.lookup name))
        (host.settings.fields.lookup name) (setup.settings.dump.lookup name) := by
  unfold setupOf at h
  obtain ⟨done, v, first, rest⟩ := on_bind_eq_ok.mp h
  obtain ⟨isRead, rfl⟩ := on_ofExcept_eq_ok.mp first
  rw [readFlags, readFlagsBehind_eq, map_eq_ok] at isRead
  obtain ⟨given, all, rfl⟩ := isRead
  refine ⟨given, all, fun name => ?_⟩
  -- the options in the order in which they are put together
  obtain ⟨rows, holds, made⟩ : ∃ rows : List (String × Value), rows.lookup name =
      ((if name = "work_dir" then (workDir.filter (· ≠ "")).map fun text => .path (.ofText text)
        else none).or (given.reverse.lookup name)) ∧
      (do
        let settings ← ofExcept .settings (Settings.ofOptions host.settings rows)
        return (⟨host, settings, .builtIn, verbose⟩ : Run.Setup) : Action Run.Setup).on v =
          (.ok setup, w') := by
    -- the directory is put over the flags, where there is one
    cases directory : workDir.filter (· ≠ "") with
    | some text =>
      rw [directory] at rest
      dsimp only at rest
      rw [Settings.named?_put_text, named?_flags, Option.map_some] at rest
      refine ⟨_, ?_, rest⟩
      rw [lookup_put, lookup_putAll]
      by_cases same : name = "work_dir" <;> simp [same]
    | none =>
      rw [directory] at rest
      dsimp only at rest
      rw [named?_flags] at rest
      refine ⟨_, ?_, rest⟩
      rw [lookup_putAll]
      by_cases same : name = "work_dir" <;> simp [same]
  rw [← holds]
  obtain ⟨settings, mid, checked, ended⟩ := on_bind_eq_ok.mp made
  cases ended
  exact Settings.ofOptions_takes (on_ofExcept_eq_ok.mp checked).1 name

/-! ## The sources of a call -/

/-- Where the options of a call come from: the flags of the experiment, the working directory and the
flags of the command line, the variables of the process and those of the environment file, and the
current directory. -/
structure Sources where
  experiment : List (String × Value)
  workDir : Option Path
  flags : List (String × Value)
  process : Environment
  file : List (String × Option String)
  current : Path

namespace Sources

/-- What the command line sets an option to. Of flags with one name the last one counts. -/
def called (s : Sources) (name : String) : Option Value :=
  (if name = "work_dir" then s.workDir.map .path else none).or (s.flags.reverse.lookup name)

/-- What an option is set to, by the experiment or else by the command line. -/
def given (s : Sources) (name : String) : Option Value :=
  (s.experiment.reverse.lookup name).or (s.called name)

/-- The value of a variable, of the process or else of the environment file. -/
def value? (s : Sources) (name : String) : Option String :=
  (s.process.get? name).or (s.file.lookup name).join

end Sources

namespace Call

/-- The sources of a call in a world, with the experiment that it loads. -/
structure Gathers (c : Call) (host : Host) (fs : FileSystem) (e : Experiment) (s : Sources) :
    Prop where
  experiment : e.flags = Mapping.ofTexts s.experiment
  workDir : s.workDir = c.workDir.map .ofText
  flags : c.flags.mapM readFlag = .ok s.flags
  process : s.process = host.environment
  file : ∃ asked, Startup.asked host c.environmentFile = .ok asked ∧
    Startup.Reads host fs ((Startup.candidates asked host.current).find?
      (Startup.isThere fs host.current)) s.file
  current : s.current = ⟨.root, host.current⟩

theorem filter_workDir {c : Call} {files : FileSystem} {current : Location}
    (checked : c.check files current = .ok ()) : c.workDir.filter (· ≠ "") = c.workDir := by
  cases directory : c.workDir with
  | none => rfl
  | some text =>
    rw [Option.filter_some, if_pos]
    rw [decide_eq_true_eq]
    rintro rfl
    -- the empty text leads nowhere
    obtain ⟨_, isChecked, -⟩ := bind_eq_ok.mp checked
    rw [directory, checkDirectory, if_neg (by simp [hasNull])] at isChecked
    have nowhere : destination? files current "" = none := by
      unfold destination?
      dsimp only
      split <;> rfl
    rw [nowhere] at isChecked
    cases isChecked

/-- Every option of the pipelines holds what the check makes of the value that the first source sets it
to, or else the value of its variable, or what is built in; and flags of the experiment change no option
but those that they name. -/
theorem sources_in_order {c : Call} {host : Host} {w v : World} {b : Begun}
    (begins : c.Begins host w b v) : ∃ s, c.Gathers host w.files b.experiment s ∧ ∀ name,
      Settings.Takes name (s.given name) (Settings.inherited s.value? s.current name)
        (b.scope.settings.dump.lookup name) ∧
      (s.experiment.reverse.lookup name = none →
        b.scope.settings.dump.lookup name = b.setup.settings.dump.lookup name) := by
  obtain ⟨-, host', file, started, completed, checked, loaded, configured, built⟩ := begins
  obtain ⟨asked, values, isAsked, isChosen, reads, current, extended⟩ :=
    Startup.load_eq_ok completed
  obtain ⟨flags, areRead, takes⟩ := setupOf_takes configured
  obtain ⟨own, named, takes'⟩ :=
    Settings.withFlags_takes (Run.prepare_settings (Run.build_eq_ok built).1)
  rw [filter_workDir checked] at takes
  refine ⟨⟨own, c.workDir.map .ofText, flags, host.environment, values, ⟨.root, host.current⟩⟩,
    ⟨named, rfl, areRead, rfl, ⟨asked, isAsked, isChosen ▸ reads⟩, rfl⟩, fun name => ⟨?_, ?_⟩⟩
  · -- the command line is taken over what is inherited, and the experiment over both
    have first := takes name
    rw [Host.settings, Settings.ofEnvironment_fields, current] at first
    have value? : host'.environment.get? = Sources.value?
        ⟨own, c.workDir.map .ofText, flags, host.environment, values, ⟨.root, host.current⟩⟩ :=
      funext extended
    rw [value?] at first
    have both := first.trans (takes' name)
    have directory : c.workDir.map (fun text => Value.path (.ofText text)) =
        (c.workDir.map Path.ofText).map .path := (Option.map_map _ _ _).symm
    rw [directory] at both
    exact both
  · -- applying the flags checks every option again, which changes none that was checked before
    intro unset
    have second := takes' name
    rw [show own.reverse.lookup name = none from unset] at second
    exact second

/-- A host with two variables that stand for options. -/
def layeredHost : Host :=
  .plain [("TREEFLOW_SAVE_BROWSER", "esr"), ("TREEFLOW_PYTHON", "py3")] ["work"]

/-- An environment file with one of them, and with another variable. -/
def layeredText : String := "TREEFLOW_PYTHON=a\nTREEFLOW_TEMPLATE_DIR=t"

/-- The environment file beside an experiment that sets a flag. -/
def layeredFiles : FileSystem :=
  ((FileSystem.empty.put ["work"] .directory).put ["work", "e.yaml"]
    (.file (Utf8.encode "inputs: []\ntree: {}\nflags: {k: b}"))).put ["work", ".env"]
    (.file (Utf8.encode layeredText))

/-- A call that sets the flag of the experiment and a variable's option to something else. -/
def layered : Call := ⟨none, some ".", ["python=", "k="], false, "e.yaml"⟩

/-- The host with the variables of the file. -/
def layeredCompleted : Host :=
  { layeredHost with environment := layeredHost.environment ++ [("TREEFLOW_TEMPLATE_DIR", "t")] }

theorem layered_completed : (Startup.load layeredHost none).on (.start layeredFiles) =
    (.ok (layeredCompleted, some ⟨.root, ["work", ".env"]⟩), .start layeredFiles) := by
  have values : EnvironmentFile.resolve layeredHost.environment []
      (EnvironmentFile.definitions (String.ofList (Text.unifyLineEnds layeredText.toList))) =
      [("TREEFLOW_PYTHON", some "a"), ("TREEFLOW_TEMPLATE_DIR", some "t")] := by
    decide +kernel
  -- the first of the two variables has a value already, and keeps it
  have known : EnvironmentFile.define layeredHost.environment "TREEFLOW_PYTHON" "a" =
      .ok layeredHost.environment := rfl
  have fresh : EnvironmentFile.define layeredHost.environment "TREEFLOW_TEMPLATE_DIR" "t" =
      .ok layeredCompleted.environment := by
    rw [EnvironmentFile.define, if_neg (by decide), if_neg (by simp), if_neg (by simp)]
    rfl
  have defined : EnvironmentFile.load layeredHost.environment
      (String.ofList (Text.unifyLineEnds layeredText.toList)) =
      .ok layeredCompleted.environment := by
    rw [EnvironmentFile.load, values]
    exact bind_eq_ok.mpr ⟨_, known, bind_eq_ok.mpr ⟨_, fresh, rfl⟩⟩
  have decoded : Utf8.decode (Utf8.encode layeredText) = .ok layeredText :=
    eq_ok_of_toOption (by decide +kernel)
  have looked : (look layeredHost.current ⟨.root, ["work", ".env"]⟩).on (.start layeredFiles) =
      (.ok (some (["work", ".env"], .file (Utf8.encode layeredText))), .start layeredFiles) := rfl
  have read : (Startup.loadFile layeredHost ⟨.root, ["work", ".env"]⟩).on (.start layeredFiles) =
      (.ok layeredCompleted.environment, .start layeredFiles) := by
    rw [Startup.loadFile, if_neg (by decide), on_bind_ok looked]
    dsimp only
    rw [decoded, on_bind_ok (on_ofExcept _ _ _), defined]
    rfl
  have unasked : (Startup.findExplicit layeredHost none).on (.start layeredFiles) =
      (.ok none, .start layeredFiles) := rfl
  have found : (Startup.findLocal layeredHost.current Startup.localFiles).on
      (.start layeredFiles) =
      (.ok (some ⟨.root, ["work", ".env"]⟩), .start layeredFiles) := rfl
  rw [Startup.load, on_bind_ok unasked, on_bind_ok found]
  dsimp only
  rw [on_bind_ok read]
  rfl

/-- Whether flags set `k` to the text `b` and nothing else. -/
def setsOnlyK : Mapping → Bool
  | [(.text "k", .text "b")] => true
  | _ => false

theorem eq_of_setsOnlyK {flags : Mapping} (h : setsOnlyK flags = true) :
    flags = [(.text "k", .text "b")] := by
  unfold setsOnlyK at h
  split at h
  · rfl
  · cases h

theorem layered_loaded : ∃ e, e.inputs = [] ∧ e.flags = [(.text "k", .text "b")] ∧
    (Run.load layeredCompleted (.ofText "e.yaml")).on (.start layeredFiles) =
      (.ok e, .start layeredFiles) := by
  have loads : ((Run.load layeredCompleted (.ofText "e.yaml")).on
      (.start layeredFiles)).1.toOption.any (fun e => e.inputs.isEmpty && setsOnlyK e.flags) = true := by
    decide +kernel
  obtain ⟨e, holds, loaded⟩ := exists_loaded loads
  obtain ⟨inputs, flags⟩ := Bool.and_eq_true_iff.mp holds
  exact ⟨e, List.isEmpty_iff.mp inputs, eq_of_setsOnlyK flags, loaded⟩

theorem layered_begins : ∃ b v, layered.Begins layeredHost (.start layeredFiles) b v ∧
      b.scope.settings.dump.lookup "k" = some (.text "b") ∧
      b.scope.settings.dump.lookup "python" = some (.text "") ∧
      b.scope.settings.dump.lookup "save_browser" = some (.text "esr") ∧
      b.scope.settings.dump.lookup "template_dir" = some (.path (.ofText "t")) := by
  obtain ⟨e, inputs, flags, loaded⟩ := layered_loaded
  have checked : layered.check layeredFiles ["work"] = .ok () := by
    have directory : checkDirectory layeredFiles ["work"] (some ".") = .ok () := by
      rw [checkDirectory, if_neg (by simp [hasNull])]
      exact eq_ok_of_toOption (by decide +kernel)
    have operand : takeExperiment layeredFiles ["work"] ["e.yaml"] = .ok "e.yaml" := by
      rw [takeExperiment, if_neg (by simp [hasNull])]
      exact eq_ok_of_toOption (by decide +kernel)
    rw [check, show layered.workDir = some "." from rfl, directory,
      show layered.experiment = "e.yaml" from rfl, operand]
    rfl
  obtain ⟨setup, configured, built⟩ : ∃ setup, (setupOf layeredCompleted layered.workDir
      layered.flags false).on (.start layeredFiles) = (.ok setup, .start layeredFiles) ∧
      ∃ scope v, (Run.build setup e).on (.start layeredFiles) = (.ok (scope, []), v) ∧
        scope.settings.dump.lookup "k" = some (.text "b") ∧
        scope.settings.dump.lookup "python" = some (.text "") ∧
        scope.settings.dump.lookup "save_browser" = some (.text "esr") ∧
        scope.settings.dump.lookup "template_dir" = some (.path (.ofText "t")) := by
    refine ⟨_, rfl, ?_⟩
    unfold Run.build Run.prepare Run.applyFlags Pipeline.buildAll
    rw [flags, inputs]
    exact ⟨_, _, rfl, rfl, rfl, rfl, rfl⟩
  obtain ⟨scope, v, built, held⟩ := built
  exact ⟨⟨e, setup, scope, []⟩, v, ⟨rfl, _, _, _, layered_completed, checked, loaded, configured,
    built⟩, held⟩

/-- Here the experiment, the command line, a variable of the process and one of the file each set an
option that nothing before them sets. -/
theorem layered_in_order : ∃ b v, layered.Begins layeredHost (.start layeredFiles) b v ∧
    (b.scope.settings.dump.lookup "k" = some (.text "b") ∧
      b.scope.settings.dump.lookup "python" = some (.text "") ∧
      b.scope.settings.dump.lookup "save_browser" = some (.text "esr") ∧
      b.scope.settings.dump.lookup "template_dir" = some (.path (.ofText "t"))) ∧
    ∃ s, layered.Gathers layeredHost layeredFiles b.experiment s ∧ ∀ name,
      Settings.Takes name (s.given name) (Settings.inherited s.value? s.current name)
        (b.scope.settings.dump.lookup name) ∧
      (s.experiment.reverse.lookup name = none →
        b.scope.settings.dump.lookup name = b.setup.settings.dump.lookup name) := by
  obtain ⟨b, v, begins, held⟩ := layered_begins
  exact ⟨b, v, begins, held, sources_in_order begins⟩

/-- A host where the reading of environment files is turned off. -/
def unreadHost : Host := .plain [("PYTHON_DOTENV_DISABLED", "1")] ["work"]

/-- An environment file that sets the interpreter, beside an experiment without flags. -/
def unreadFiles : FileSystem :=
  emptyFiles.put ["work", ".env"] (.file (Utf8.encode "TREEFLOW_PYTHON=a"))

/-- A call that sets nothing. -/
def bare : Call := ⟨none, none, [], false, "e.yaml"⟩

/-- An environment file that is there does not count where its reading is turned off: no other source
sets the interpreter, and yet it is not the one of the file. -/
theorem unread_file : ∃ b v, bare.Begins unreadHost (.start unreadFiles) b v ∧
    b.experiment.flags = [] ∧ unreadHost.environment.get? "TREEFLOW_PYTHON" = none ∧
    (Startup.candidates none ["work"]).find? (Startup.isThere unreadFiles ["work"]) =
      some ⟨.root, ["work", ".env"]⟩ ∧
    unreadFiles.look ["work"] ⟨.root, ["work", ".env"]⟩ =
      .ok (some (["work", ".env"], .file (Utf8.encode "TREEFLOW_PYTHON=a"))) ∧
    (EnvironmentFile.valuesOf unreadHost.environment "TREEFLOW_PYTHON=a").lookup
      "TREEFLOW_PYTHON" = some (some "a") ∧
    b.scope.settings.dump.lookup "python" ≠ some (.text "a") := by
  have disabled : EnvironmentFile.isDisabled unreadHost.environment = true := by
    decide +kernel
  have started : (Startup.load unreadHost none).on (.start unreadFiles) =
      (.ok (unreadHost, some ⟨.root, ["work", ".env"]⟩), .start unreadFiles) := by
    have unasked : (Startup.findExplicit unreadHost none).on (.start unreadFiles) =
        (.ok none, .start unreadFiles) := rfl
    have found : (Startup.findLocal unreadHost.current Startup.localFiles).on
        (.start unreadFiles) = (.ok (some ⟨.root, ["work", ".env"]⟩), .start unreadFiles) := rfl
    rw [Startup.load, on_bind_ok unasked, on_bind_ok found]
    dsimp only
    rw [Startup.loadFile, if_pos disabled]
    rfl
  have checked : bare.check unreadFiles ["work"] = .ok () := by
    have operand : takeExperiment unreadFiles ["work"] ["e.yaml"] = .ok "e.yaml" := by
      rw [takeExperiment, if_neg (by simp [hasNull])]
      exact eq_ok_of_toOption (by decide +kernel)
    rw [check, show bare.experiment = "e.yaml" from rfl, operand]
    rfl
  have loads : ((Run.load unreadHost (.ofText "e.yaml")).on
      (.start unreadFiles)).1.toOption.any (fun e => e.flags.isEmpty && e.inputs.isEmpty) =
        true := by
    decide +kernel
  obtain ⟨e, holds, loaded⟩ := exists_loaded loads
  obtain ⟨flags, inputs⟩ := Bool.and_eq_true_iff.mp holds
  rw [List.isEmpty_iff] at flags inputs
  obtain ⟨setup, configured, scope, built, held⟩ : ∃ setup, (setupOf unreadHost none []
      false).on (.start unreadFiles) = (.ok setup, .start unreadFiles) ∧
      ∃ scope, (Run.build setup e).on (.start unreadFiles) =
        (.ok (scope, []), .start unreadFiles) ∧
        scope.settings.dump.lookup "python" = some (.text "python") := by
    refine ⟨_, rfl, ?_⟩
    unfold Run.build Run.prepare Run.applyFlags Pipeline.buildAll
    rw [flags, inputs]
    exact ⟨_, rfl, rfl⟩
  refine ⟨⟨e, setup, scope, []⟩, _, ⟨rfl, _, _, _, started, checked, loaded, configured, built⟩,
    flags, rfl, rfl, rfl, by decide +kernel, ?_⟩
  rw [held]
  simp

end Call

end Command

end Branchwork
