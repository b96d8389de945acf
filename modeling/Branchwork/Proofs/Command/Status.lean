import Branchwork.Command.Perform
import Branchwork.Proofs.Run.Starts

/-!
# The statuses of `validate` and `run`

Both commands load an experiment and build its pipelines (`Begins`), and part there: one tells about
the pipelines, the other one runs them.

Main results:

* `validate_and_run` — when each of the two ends with status 0, and what they say of the pipelines.
-/

namespace Branchwork.Command

open Action Markup

/-! ## Lines that are accepted -/

/-- The line for an experiment that is valid. -/
def validLine (name : String) : String := s!"[green]✓[/green] Experiment '{escape name}' is valid"

/-- The line above the failures of a run. -/
def failuresLine (count : Nat) : String := s!"\n[yellow]{count} pipeline(s) failed:[/yellow]"

/-- The line for the failure of a pipeline. -/
def failureItem (failure : Failure) : String := s!"  • {escape failure.message}"

theorem plain_validLine (name : String) : ∃ shown, plain (validLine name) = .ok shown := by
  have split : (validLine name).toList =
      "[green]✓[/green] Experiment '".toList ++ ((escape name).toList ++ "' is valid".toList) := by
    unfold validLine
    simp only [toString, String.toList_append, List.append_assoc]
  exact plain_marked [] "green".toList "✓".toList " Experiment '".toList (by decide +kernel)
    (by simp) (tagsFrom_escape (by decide) name) split (by decide +kernel)

theorem plain_failuresLine (count : Nat) : ∃ shown, plain (failuresLine count) = .ok shown := by
  have clear : ∀ c ∈ ['\n'] ++ ((toString count).toList ++ " pipeline(s) failed:".toList) ++ [],
      c ≠ '[' ∧ c ≠ '\\' := by
    intro c mem
    simp only [List.append_nil, List.mem_append] at mem
    rcases mem with blank | mem | mem
    · obtain rfl : c = '\n' := by simpa using blank
      decide
    · exact ⟨(Run.digits_clear _ c mem).1, (Run.digits_clear _ c mem).2.1⟩
    · have clearText : " pipeline(s) failed:".toList.all (fun c => c ≠ '[' ∧ c ≠ '\\') = true := by
        decide +kernel
      simpa using List.all_eq_true.mp clearText c mem
  have split : (failuresLine count).toList = ("\n[yellow]".toList ++ ((toString count).toList ++
      " pipeline(s) failed:[/yellow]".toList)) ++ [] := by
    unfold failuresLine
    simp only [toString, String.toList_append, List.append_assoc, List.append_nil]
  refine plain_marked ['\n'] "yellow".toList _ [] (by decide +kernel) clear (fun _ => rfl) split ?_
  simp

theorem plain_failureItem (failure : Failure) :
    ∃ shown, plain (failureItem failure) = .ok shown := by
  have split : (failureItem failure).toList =
      "  • ".toList ++ ((escape failure.message).toList ++ []) := by
    unfold failureItem
    simp only [toString, String.toList_append, List.append_nil]
  have tagless : (tagsFrom 0 (failureItem failure).toList).map Piece.atStart = [] := by
    rw [split, tagsFrom_append (by simp), tagsFrom_escape (by decide)]
    rfl
  exact plain_isOk tagless rfl rfl

theorem forM_moved {α : Type} {f : α → Action Unit}
    (each : ∀ x w, ∃ w', Run.Moved w w.files [] w' ∧ (f x).on w = (.ok (), w')) (xs : List α)
    (w : World) : ∃ w', Run.Moved w w.files [] w' ∧ (xs.forM f).on w = (.ok (), w') := by
  induction xs generalizing w with
  | nil => exact ⟨w, .refl w, rfl⟩
  | cons x xs ih =>
    obtain ⟨mid, moved, first⟩ := each x w
    obtain ⟨w', moved', rest⟩ := ih mid
    rw [moved.files_eq] at moved'
    exact ⟨w', moved.trans moved', (on_bind_ok first).trans rest⟩

/-- The failures of a run are always shown. -/
theorem showFailures_on (failures : List Failure) (w : World) :
    ∃ w', Run.Moved w w.files [] w' ∧ (showFailures failures).on w = (.ok (), w') := by
  unfold showFailures
  split
  · exact ⟨w, .refl w, rfl⟩
  · obtain ⟨mid, moved, head⟩ := Run.printMarkup_moved (plain_failuresLine failures.length) w
    obtain ⟨w', moved', items⟩ := forM_moved (fun failure => Run.printMarkup_moved
      (plain_failureItem failure)) failures mid
    rw [moved.files_eq] at moved'
    exact ⟨w', moved.trans moved', (on_bind_ok head).trans items⟩

/-! ## Words -/

/-- The words behind the name of a command that ask for an experiment and a working directory. The
name of the experiment may stand in front, unless it looks like an option. -/
inductive Calls (text dir : String) : List String → Prop
  | inFront : ¬ holdsOptions text → text ≠ "--" → Calls text dir [text, "-C", dir]
  | behind : Calls text dir ["-C", dir, "--", text]

variable {text dir : String} {words : List String}

theorem readWords_directory {switches : List Switch}
    (knows : switches.find? (·.letter = some 'C') = some directorySwitch) (read : Arguments)
    (dir : String) (rest : List String) :
    readWords switches true read ("-C" :: dir :: rest) = readWords switches true
      { read with options := read.options ++ [(directorySwitch.name, some dir)] } rest := by
  have option : readOptions switches "-C".toList (some dir) =
      .ok ⟨[(directorySwitch.name, some dir)], true⟩ := by
    simp [readOptions, readLetters, knows, Switch.takesValue, directorySwitch]
  rw [readWords.eq_def]
  dsimp only
  rw [if_neg (by decide), if_pos (by decide), List.head?_cons, option]

theorem Calls.read (calls : Calls text dir words) {switches : List Switch}
    (knows : switches.find? (·.letter = some 'C') = some directorySwitch) :
    Arguments.read switches true words = .ok ⟨[(directorySwitch.name, some dir)], [text]⟩ := by
  rw [Arguments.read]
  cases calls with
  | inFront noOption noEnd =>
    -- the first word is neither the end of the options nor one of them
    rw [readWords.eq_def]
    dsimp only
    rw [if_neg noEnd, if_neg noOption, if_pos rfl, readWords_directory knows]
    rfl
  | behind =>
    rw [readWords_directory knows, readWords.eq_def]
    rfl

theorem takeExperiment_single {files : FileSystem} {current : Location} {taken : String}
    (h : takeExperiment files current [text] = .ok taken) : taken = text := by
  simp only [takeExperiment, List.isEmpty_nil, if_true] at h
  split at h
  · cases h
  · split at h
    · cases h
    · cases h
      rfl

/-- Both paths are checked. -/
def Checks (files : FileSystem) (current : Location) (text dir : String) : Prop :=
  checkDirectory files current (some dir) = .ok () ∧
    takeExperiment files current [text] = .ok text

theorem checks_iff {files : FileSystem} {current : Location} {make : String → Request}
    {request : Request} {wrap : UsageProblem → UsageFault} :
    ((do
        checkDirectory files current (some dir)
        return make (← takeExperiment files current [text])) :
        Except UsageProblem Request).mapError wrap = .ok request ↔
      Checks files current text dir ∧ request = make text := by
  cases directory : checkDirectory files current (some dir) with
  | error problem => exact ⟨fun h => (nomatch h), fun h => by rw [Checks, directory] at h; cases h.1.1⟩
  | ok =>
    cases operand : takeExperiment files current [text] with
    | error problem => exact ⟨fun h => (nomatch h), fun h => by rw [Checks, operand] at h; cases h.1.2⟩
    | ok taken =>
      cases takeExperiment_single operand
      refine ⟨fun h => ⟨⟨directory, operand⟩, ?_⟩, fun h => ?_⟩
      · cases h
        rfl
      · rw [h.2]
        rfl

/-- A command that works in a directory reads such words as the experiment and the directory, which it
checks. -/
theorem Calls.request (calls : Calls text dir words) (files : FileSystem) (current : Location)
    (request : Request) :
    (Request.read files current .validate words = .ok request ↔
      Checks files current text dir ∧ request = .validate text (some dir)) ∧
    (Request.read files current .run words = .ok request ↔
      Checks files current text dir ∧ request = .run text (some dir) [] false false) := by
  constructor
  · rw [Request.read, calls.read rfl]
    exact checks_iff
  · rw [Request.read, calls.read rfl]
    exact checks_iff

theorem opening_read (verb : Verb) (words : List String) :
    Opening.read (verb.name :: words) = .ok (.command none verb words) := by
  cases verb <;> rfl

/-! ## Ending with status 0 -/

theorem on_attempt {α : Type} (a : Action α) (w : World) :
    (attempt a).on w = (.ok (a.on w).1, (a.on w).2) := rfl

/-- A command is only successful if what it tries succeeds. -/
theorem orderly_eq_zero {α : Type} {start : String} {action : Action α} {next : α → Action Nat}
    {w w' : World} : (orderly start action next).on w = (.ok 0, w') ↔
      ∃ a mid, action.on w = (.ok a, mid) ∧ (next a).on mid = (.ok 0, w') := by
  rw [← on_bind_eq_ok, orderly, on_bind_ok (on_attempt action w), on_bind]
  rcases action.on w with ⟨fault | a, mid⟩
  · refine ⟨fun h => ?_, fun h => nomatch h⟩
    -- a fault is shown and gives the status 1, or it goes on
    dsimp only at h
    split at h
    · obtain ⟨_, _, -, h⟩ := on_bind_eq_ok.mp h
      cases h
    · cases h
  · exact Iff.rfl

theorem performVerb_eq_zero {host : Host} {verb : Verb} {words : List String} {w w' : World} :
    (performVerb host verb words).on w = (.ok 0, w') ↔
      ∃ request, Request.read w.files host.current verb words = .ok request ∧
        (perform host request).on w = (.ok 0, w') := by
  have refused : ∀ fault w, (refuse fault).on w ≠ (.ok 0, w') := by
    intro fault w h
    unfold refuse at h
    split at h
    · cases h
    · obtain ⟨_, _, -, h⟩ := on_bind_eq_ok.mp h
      cases h
  rw [performVerb, on_bind_ok (on_files w)]
  cases Request.read w.files host.current verb words with
  | error fault => exact ⟨fun h => absurd h (refused _ _), fun ⟨_, same, _⟩ => nomatch same⟩
  | ok request =>
    simp only [Except.ok.injEq, exists_eq_left']
    rw [on_bind_ok (on_attempt _ w)]
    rcases (perform host request).on w with ⟨fault | status, mid⟩
    · -- a command that fails is refused, or its fault goes on
      refine ⟨fun h => ?_, fun h => nomatch h⟩
      dsimp only at h
      split at h
      · next same => cases same
      · exact absurd h (refused _ _)
      · cases h
    · exact Iff.rfl

theorem performAll_run (host : Host) (words : List String) (w : World) :
    StateT.run (performAll host words) w = match (performLine host words).on w with
      | (.ok status, w) => (.exit status, w)
      | (.error fault, w) => (.stopped fault, w) := by
  rw [performAll, StateT.run_bind,
    show StateT.run (performLine host words).run w = (performLine host words).on w from rfl]
  rcases (performLine host words).on w with ⟨_ | _, _⟩ <;> rfl

/-- The environment is completed before a command is performed. -/
theorem performLine_verb (host : Host) (verb : Verb) (words : List String) :
    performLine host (verb.name :: words) = (do
      let (host, _) ← Startup.load host none
      performVerb host verb words) := by
  rw [performLine, opening_read]
  rfl

theorem performAll_eq_zero {host : Host} {verb : Verb} {words : List String} {w w' : World} :
    StateT.run (performAll host (verb.name :: words)) w = (.exit 0, w') ↔
      ∃ host' file started, (Startup.load host none).on w = (.ok (host', file), started) ∧
        (performVerb host' verb words).on started = (.ok 0, w') := by
  rw [performAll_run]
  constructor
  · intro h
    rcases ran : (performLine host (verb.name :: words)).on w with ⟨fault | status, mid⟩
    · rw [ran] at h
      cases h
    · rw [ran] at h
      cases h
      rw [performLine_verb] at ran
      obtain ⟨⟨host', file⟩, started, loaded, performed⟩ := on_bind_eq_ok.mp ran
      exact ⟨host', file, started, loaded, performed⟩
  · rintro ⟨host', file, started, loaded, performed⟩
    rw [performLine_verb, on_bind_ok loaded, performed]

/-! ## What both commands begin with -/

/-- An experiment that is loaded, what a run of it works with, and the pipelines that are built. -/
structure Begun where
  experiment : Experiment
  setup : Run.Setup
  scope : Stage.Scope
  pipelines : List Pipeline

/-- The environment is complete and both paths lead to something. The experiment is loaded, with the
given working directory, and its pipelines are built. -/
def Begins (host : Host) (text dir : String) (w : World) (b : Begun) (w' : World) : Prop :=
  ∃ host' file started loaded configured,
    (Startup.load host none).on w = (.ok (host', file), started) ∧
    Checks started.files host'.current text dir ∧
    (Run.load host' (.ofText text)).on started = (.ok b.experiment, loaded) ∧
    (setupOf host' (some dir) [] false).on loaded = (.ok b.setup, configured) ∧
    (Run.build b.setup b.experiment).on configured = (.ok (b.scope, b.pipelines), w')

/-- Both commands begin in one way. -/
theorem Begins.unique {host : Host} {w w' w'' : World} {b b' : Begun}
    (h : Begins host text dir w b w') (h' : Begins host text dir w b' w'') : b = b' ∧ w' = w'' := by
  obtain ⟨b, setup, scope, pipelines⟩ := b
  obtain ⟨b', setup', scope', pipelines'⟩ := b'
  obtain ⟨host', file, started, loaded, configured, s, -, l, c, built⟩ := h
  obtain ⟨host'', file', started', loaded', configured', s', -, l', c', built'⟩ := h'
  cases s.symm.trans s'
  cases l.symm.trans l'
  cases c.symm.trans c'
  cases built.symm.trans built'
  exact ⟨rfl, rfl⟩

theorem Begins.onFiles {host : Host} {w w' : World} {b : Begun} (h : Begins host text dir w b w') :
    b.scope.OnFiles := by
  obtain ⟨_, _, _, _, _, -, -, -, -, built⟩ := h
  exact Run.prepare_onFiles (Run.build_eq_ok built).1

/-! ## Telling about an experiment -/

/-- The name and the flags of an experiment are accepted as cells of a table. They are put there as
they are, while every other line holds them escaped. -/
def Listable (e : Experiment) : Prop :=
  (∃ name, plain e.name = .ok name) ∧ ∃ flags, plain (flagNames e.flags) = .ok flags

/-- Tells about an experiment and the count of its pipelines. -/
def tell (e : Experiment) (count : Nat) : Action Nat := do
  printMarkup (validLine e.name)
  print ""
  let rows ← (summaryOf e count).mapM fun (property, value) => do
    return [property, ← plainCell value]
  let table : Console.Table := ⟨"Experiment Summary", ["Property", "Value"], rows⟩
  printLines table.lines
  return 0

theorem validate_eq (host : Host) (text : String) (workDir : Option String) :
    validate host text workDir = orderly "Validation failed: "
      (do
        let e ← Run.load host (.ofText text)
        let (_, pipelines) ← Run.build (← setupOf host workDir [] false) e
        return (e, pipelines.length))
      fun (e, count) => tell e count := rfl

/-- The rows of the table about an experiment, whose name and flags are seen as the given texts. -/
def rowsOf (e : Experiment) (count : Nat) (name flags : String) : List (List String) :=
  [["Name", name], ["Inputs", toString e.inputs.length], ["Tree nodes", toString e.tree.length],
    ["Pipelines", toString count], ["Flags", flags]]

/-- What is shown about an experiment below the line that says that it is valid. -/
def summaryText (rows : List (List String)) : String :=
  Console.shown "" ++ String.join
    ((Console.Table.lines ⟨"Experiment Summary", ["Property", "Value"], rows⟩).map (· ++ "\n"))

/-- A text without an opening bracket is seen as it is. -/
theorem plain_of_not_mem {s : String} (clear : '[' ∉ s.toList) : plain s = .ok s := by
  rw [plain, if_neg]
  rw [String.contains_char_eq]
  simpa using clear

theorem plain_toString (n : Nat) : plain (toString n) = .ok (toString n) :=
  plain_of_not_mem fun mem => (Run.digits_clear n '[' mem).1 rfl

theorem rows_on (e : Experiment) (count : Nat) (w : World) :
    ((summaryOf e count).mapM fun (property, value) => do
      return [property, ← plainCell value] : Action (List (List String))).on w =
      ((do
        let name ← plain e.name
        let flags ← plain (flagNames e.flags)
        return rowsOf e count name flags : Except Markup.Problem (List (List String))).mapError
          .markup, w) := by
  simp only [summaryOf, List.mapM_cons, List.mapM_nil, plainCell, plain_toString]
  cases name : plain e.name with
  | error problem => rfl
  | ok name =>
    cases flags : plain (flagNames e.flags) with
    | error problem => rfl
    | ok flags => rfl

/-- If the name and the flags are accepted, everything is shown. -/
theorem tell_on {e : Experiment} {name flags : String} (named : plain e.name = .ok name)
    (flagged : plain (flagNames e.flags) = .ok flags) (count : Nat) (w : World) :
    ∃ title, plain (validLine e.name) = .ok title ∧ (tell e count).on w = (.ok 0, { w with
      shown := w.shown ++ Console.shown title ++ summaryText (rowsOf e count name flags) }) := by
  obtain ⟨title, valid⟩ := plain_validLine e.name
  refine ⟨title, valid, ?_⟩
  have rows := rows_on e count
  rw [named, flagged] at rows
  rw [tell, on_bind_ok (on_printMarkup_ok valid w), on_bind_ok (on_print _ _), on_bind_ok (rows _),
    summaryText, ← String.append_assoc]
  rfl

theorem listable_of_tell {e : Experiment} {count : Nat} {w w' : World}
    (h : (tell e count).on w = (.ok 0, w')) : Listable e := by
  obtain ⟨_, _, -, h⟩ := on_bind_eq_ok.mp h
  obtain ⟨_, _, -, h⟩ := on_bind_eq_ok.mp h
  obtain ⟨rows, _, listed, -⟩ := on_bind_eq_ok.mp h
  rw [rows_on] at listed
  -- a cell that is refused stops the table
  constructor
  · cases named : plain e.name with
    | ok name => exact ⟨name, rfl⟩
    | error problem => rw [named] at listed; cases listed
  · cases flagged : plain (flagNames e.flags) with
    | ok flags => exact ⟨flags, rfl⟩
    | error problem =>
      rw [flagged] at listed
      cases named : plain e.name <;> rw [named] at listed <;> cases listed

/-! ## The two commands -/

/-- The console accepts the reports on all pipelines, each of which is run from the files that the one
before has left. -/
def Begun.Reportable (b : Begun) (fs : FileSystem) : Prop :=
  ∀ r ∈ Pipeline.each b.scope b.pipelines fs, ∀ problem, ¬ Run.Refused r.1 problem

/-- `validate` is successful if the experiment begins and it can tell about it. -/
theorem validate_eq_zero (calls : Calls text dir words) {host : Host} {w final : World} :
    StateT.run (performAll host ("validate" :: words)) w = (.exit 0, final) ↔
      ∃ b w', Begins host text dir w b w' ∧
        (tell b.experiment b.pipelines.length).on w' = (.ok 0, final) := by
  rw [show "validate" = Verb.validate.name from rfl, performAll_eq_zero]
  simp only [performVerb_eq_zero, (calls.request _ _ _).1]
  constructor
  · -- a status of 0 means that every action on the way has succeeded
    rintro ⟨host', file, started, s, _, ⟨checks, rfl⟩, performed⟩
    rw [perform, validate_eq] at performed
    obtain ⟨⟨e, count⟩, w', action, told⟩ := orderly_eq_zero.mp performed
    obtain ⟨_, loaded, l, action⟩ := on_bind_eq_ok.mp action
    obtain ⟨setup, configured, c, action⟩ := on_bind_eq_ok.mp action
    obtain ⟨⟨scope, pipelines⟩, _, built, last⟩ := on_bind_eq_ok.mp action
    cases last
    exact ⟨⟨e, setup, scope, pipelines⟩, w',
      ⟨host', file, started, loaded, configured, s, checks, l, c, built⟩, told⟩
  · rintro ⟨⟨e, setup, scope, pipelines⟩, w', ⟨host', file, started, loaded, configured, s, checks,
      l, c, built⟩, told⟩
    refine ⟨host', file, started, s, _, ⟨checks, rfl⟩, orderly_eq_zero.mpr ⟨(e, _), w', ?_, told⟩⟩
    rw [on_bind_ok l, on_bind_ok c, on_bind_ok built]
    rfl

theorem run_eq_zero (calls : Calls text dir words) {host : Host} {w final : World} :
    StateT.run (performAll host ("run" :: words)) w = (.exit 0, final) ↔
      ∃ host' file started loaded configured e setup result behind,
        (Startup.load host none).on w = (.ok (host', file), started) ∧
        Checks started.files host'.current text dir ∧
        (Run.load host' (.ofText text)).on started = (.ok e, loaded) ∧
        (setupOf host' (some dir) [] false).on loaded = (.ok setup, configured) ∧
        (Run.experiment setup e).on configured = (.ok result, behind) ∧
        (showFailures result.failures).on behind = (.ok (), final) := by
  rw [show "run" = Verb.run.name from rfl, performAll_eq_zero]
  simp only [performVerb_eq_zero, (calls.request _ _ _).2]
  constructor
  · -- the run is the action, and showing its failures comes behind
    rintro ⟨host', file, started, s, _, ⟨checks, rfl⟩, performed⟩
    obtain ⟨result, behind, action, shown⟩ := orderly_eq_zero.mp performed
    obtain ⟨e, loaded, l, action⟩ := on_bind_eq_ok.mp action
    obtain ⟨setup, configured, c, ran⟩ := on_bind_eq_ok.mp action
    obtain ⟨⟨⟩, _, shown, last⟩ := on_bind_eq_ok.mp shown
    cases last
    exact ⟨host', file, started, loaded, configured, e, setup, result, _, s, checks, l, c, ran, shown⟩
  · rintro ⟨host', file, started, loaded, configured, e, setup, result, behind, s, checks, l, c, ran,
      shown⟩
    refine ⟨host', file, started, s, _, ⟨checks, rfl⟩, orderly_eq_zero.mpr ⟨result, behind, ?_, ?_⟩⟩
    · rw [on_bind_ok l, on_bind_ok c, ran]
    · rw [on_bind_ok shown]
      rfl

/-- What becomes of a run that begins and whose reports are accepted. -/
theorem run_of_reportable (calls : Calls text dir words) {host : Host} {w w' : World} {b : Begun}
    (begins : Begins host text dir w b w') (reportable : b.Reportable w'.files) :
    ∃ final, StateT.run (performAll host ("run" :: words)) w = (.exit 0, final) ∧
      Run.Moved w' (Pipeline.filesBehind w'.files (Pipeline.each b.scope b.pipelines w'.files))
        ((Pipeline.each b.scope b.pipelines w'.files).map (Pipeline.noticeOf ·.1) ++
          [.runDone ⟨b.pipelines.length,
            (Pipeline.each b.scope b.pipelines w'.files).filterMap (·.1.failure)⟩]) final := by
  obtain ⟨host', file, started, loaded, configured, s, checks, l, c, built⟩ := begins
  obtain ⟨prepared, all⟩ := Run.build_eq_ok built
  -- up to there only messages were logged
  obtain ⟨log, same⟩ := Run.build_onlyLogs b.setup b.experiment configured
  rw [built] at same
  have files : w'.files = configured.files := by rw [show w' = _ from same]
  have quiet : Run.Moved w' configured.files [] configured := by
    rw [show w' = _ from same]
    exact ⟨configured.log, configured.shown, by rw [List.append_nil]⟩
  rw [files] at reportable ⊢
  obtain ⟨result, behind, ran, rfl, moved⟩ := Run.experiment_ends prepared all reportable
  -- behind the run only the failures are shown
  obtain ⟨final, shows, shown⟩ := showFailures_on
    ((Pipeline.each b.scope b.pipelines configured.files).filterMap (·.1.failure)) behind
  rw [moved.files_eq] at shows
  refine ⟨final, (run_eq_zero calls).mpr ⟨host', file, started, loaded, configured, _, _, _, behind,
    s, checks, l, c, ran, shown⟩, ?_⟩
  have whole := (quiet.trans moved).trans shows
  rwa [List.nil_append, List.append_nil] at whole

theorem reportable_of_run (calls : Calls text dir words) {host : Host} {w final : World}
    (h : StateT.run (performAll host ("run" :: words)) w = (.exit 0, final)) :
    ∃ b w', Begins host text dir w b w' ∧ b.Reportable w'.files := by
  obtain ⟨host', file, started, loaded, configured, e, setup, result, behind, s, checks, l, c, ran,
    -⟩ := (run_eq_zero calls).mp h
  -- a run that ended has built its pipelines first
  have begun := ran
  rw [Run.experiment] at begun
  obtain ⟨⟨scope, pipelines⟩, w', built, -⟩ := on_bind_eq_ok.mp begun
  obtain ⟨prepared, all⟩ := Run.build_eq_ok built
  obtain ⟨log, same⟩ := Run.build_onlyLogs setup e configured
  rw [built] at same
  have files : w'.files = configured.files := by rw [show w' = _ from same]
  refine ⟨⟨e, setup, scope, pipelines⟩, w',
    ⟨host', file, started, loaded, configured, s, checks, l, c, built⟩, ?_⟩
  -- and it would not have ended if a report had been refused
  rw [Begun.Reportable, files]
  exact (Run.experiment_ok_iff prepared all).mp ⟨result, behind, ran⟩

/-- How a command ends that is called with words behind its name, and the world behind it. -/
def called (host : Host) (verb : Verb) (words : List String) (w : World) : Ending × World :=
  StateT.run (performAll host (verb.name :: words)) w

/-- Each of the two commands is successful if the experiment begins and what it has to show is accepted:
`validate` shows the name and the flags as they are, `run` shows reports on failures. Then `validate`
counts the pipelines that `run` attempts. The statuses agree if and only if both are accepted or
neither is. -/
theorem validate_and_run (calls : Calls text dir words) (host : Host) (w : World) :
    ((called host .validate words w).1 = .exit 0 ↔
      ∃ b w', Begins host text dir w b w' ∧ Listable b.experiment) ∧
    ((called host .run words w).1 = .exit 0 ↔
      ∃ b w', Begins host text dir w b w' ∧ b.Reportable w'.files) ∧
    ∀ b w', Begins host text dir w b w' →
      ((called host .validate words w).1 = .exit 0 → ∃ name flags title,
        (called host .validate words w).2.shown = w'.shown ++ Console.shown title ++
          summaryText (rowsOf b.experiment b.pipelines.length name flags)) ∧
      ((called host .run words w).1 = .exit 0 →
        ∃ results, Pipeline.Attempts b.scope w'.files b.pipelines results ∧
          results.length = b.pipelines.length ∧
          (called host .run words w).2.notices = w'.notices ++
            (results.map (Pipeline.noticeOf ·.1) ++
              [.runDone ⟨b.pipelines.length, results.filterMap (·.1.failure)⟩])) ∧
      (((called host .validate words w).1 = .exit 0 ↔ (called host .run words w).1 = .exit 0) ↔
        (Listable b.experiment ↔ b.Reportable w'.files)) := by
  have validates : (called host .validate words w).1 = .exit 0 ↔
      ∃ b w', Begins host text dir w b w' ∧ Listable b.experiment := by
    constructor
    · intro zero
      obtain ⟨b, w', begins, told⟩ := (validate_eq_zero calls).mp (Prod.ext zero rfl)
      exact ⟨b, w', begins, listable_of_tell told⟩
    · rintro ⟨b, w', begins, ⟨name, named⟩, flags, flagged⟩
      obtain ⟨title, -, told⟩ := tell_on named flagged b.pipelines.length w'
      exact congrArg Prod.fst ((validate_eq_zero calls).mpr ⟨b, w', begins, told⟩)
  have runs : (called host .run words w).1 = .exit 0 ↔
      ∃ b w', Begins host text dir w b w' ∧ b.Reportable w'.files := by
    constructor
    · intro zero
      exact reportable_of_run calls (Prod.ext zero rfl)
    · rintro ⟨b, w', begins, reportable⟩
      obtain ⟨final, ran, -⟩ := run_of_reportable calls begins reportable
      exact congrArg Prod.fst ran
  refine ⟨validates, runs, fun b w' begins => ⟨fun zero => ?_, fun zero => ?_, ?_⟩⟩
  · -- what `validate` shows is the line and the table
    obtain ⟨b', w'', begins', ⟨name, named⟩, flags, flagged⟩ := validates.mp zero
    obtain ⟨rfl, rfl⟩ := begins.unique begins'
    obtain ⟨title, -, told⟩ := tell_on named flagged b.pipelines.length w'
    have shown := (validate_eq_zero calls).mpr ⟨b, w', begins, told⟩
    exact ⟨name, flags, title, congrArg (·.2.shown) shown⟩
  · -- what `run` tells of are its pipelines and the result
    obtain ⟨b', w'', begins', reportable⟩ := runs.mp zero
    obtain ⟨rfl, rfl⟩ := begins.unique begins'
    obtain ⟨final, ran, log, shown, moved⟩ := run_of_reportable calls begins reportable
    refine ⟨_, Run.attempts_each begins.onFiles b.pipelines w'.files, Pipeline.length_each _ _ _, ?_⟩
    rw [called, show Verb.run.name = "run" from rfl, ran, moved]
  · -- whoever is successful has begun in the one way there is
    have listed : (∃ b w', Begins host text dir w b w' ∧ Listable b.experiment) ↔
        Listable b.experiment :=
      ⟨fun ⟨b', _, begins', h⟩ => (begins.unique begins').1 ▸ h, fun h => ⟨b, w', begins, h⟩⟩
    have reported : (∃ b w', Begins host text dir w b w' ∧ b.Reportable w'.files) ↔
        b.Reportable w'.files := by
      refine ⟨fun ⟨b', w'', begins', h⟩ => ?_, fun h => ⟨b, w', begins, h⟩⟩
      obtain ⟨rfl, rfl⟩ := begins.unique begins'
      exact h
    rw [validates, runs, listed, reported]

/-! ## An experiment without inputs -/

/-- The description of an experiment without inputs, in the working directory. -/
def emptyFiles : FileSystem :=
  (FileSystem.empty.put ["work"] .directory).put ["work", "e.yaml"]
    (.file (Utf8.encode "inputs: []\ntree: {}"))

theorem bind_unchanged {α β : Type} {a : Action α} {f : α → Action β}
    (first : ∀ w, (a.on w).2 = w) (rest : ∀ x w, ((f x).on w).2 = w) (w : World) :
    ((a >>= f).on w).2 = w := by
  have same := first w
  rw [on_bind]
  rcases ran : a.on w with ⟨_ | x, mid⟩ <;> rw [ran] at same
  · exact same
  · exact (rest x mid).trans same

theorem load_unchanged (host : Host) (p : Path) (w : World) : ((Run.load host p).on w).2 = w := by
  have reads : ∀ w : World, ((do
      let bytes ← ofExcept .files ((← files).readFile host.current p)
      let text ← ofExcept .utf8 (Utf8.decode bytes)
      Run.parse (String.ofList (Text.unifyLineEnds text.toList)) (some p.stem) :
      Action Experiment).on w).2 = w :=
    bind_unchanged (fun _ => rfl) fun _ => bind_unchanged (fun w => by rw [on_ofExcept]) fun _ =>
      bind_unchanged (fun w => by rw [on_ofExcept]) fun _ w => by rw [Run.parse, on_ofExcept]
  unfold Run.load
  refine bind_unchanged (fun w => by rw [on_look]) (fun found w => ?_) w
  dsimp only
  split
  · exact reads w
  · exact bind_unchanged (fun _ => rfl) (fun _ => reads) w

/-- A description that is read shows what is asked of it, and reading it does nothing else. -/
theorem exists_loaded {host : Host} {p : Path} {w : World} {holds : Experiment → Bool}
    (loads : ((Run.load host p).on w).1.toOption.any holds = true) :
    ∃ e, holds e = true ∧ (Run.load host p).on w = (.ok e, w) := by
  have unchanged := load_unchanged host p w
  rcases loaded : (Run.load host p).on w with ⟨_ | e, w'⟩
  · rw [loaded] at loads
    cases loads
  · rw [loaded] at loads unchanged
    obtain rfl : w' = w := unchanged
    exact ⟨e, loads, rfl⟩

theorem exists_begins : ∃ b, Begins (Host.plain [] ["work"]) "e.yaml" "." (.start emptyFiles) b
    (.start emptyFiles) ∧ b.experiment.name = "e" ∧ b.experiment.flags = [] ∧
      b.pipelines = [] := by
  have loads : ((Run.load (Host.plain [] ["work"]) (.ofText "e.yaml")).on
      (.start emptyFiles)).1.toOption.any
        (fun e => e.name = "e" && e.inputs.isEmpty && e.flags.isEmpty) = true := by
    decide +kernel
  obtain ⟨e, holds, loaded⟩ := exists_loaded loads
  simp only [Bool.and_eq_true, decide_eq_true_eq, List.isEmpty_iff] at holds
  obtain ⟨⟨name, inputs⟩, flags⟩ := holds
  have checks : Checks emptyFiles ["work"] "e.yaml" "." := by
    constructor
    · rw [checkDirectory, if_neg (by simp [hasNull])]
      decide +kernel
    · rw [takeExperiment, if_neg (by simp [hasNull])]
      decide +kernel
  -- there is nothing to configure, and no pipeline to build
  obtain ⟨setup, configured⟩ : ∃ setup, (setupOf (Host.plain [] ["work"]) (some ".") [] false).on
      (.start emptyFiles) = (.ok setup, .start emptyFiles) := ⟨_, rfl⟩
  obtain ⟨scope, built⟩ : ∃ scope, (Run.build setup e).on (.start emptyFiles) =
      (.ok (scope, []), .start emptyFiles) := by
    unfold Run.build Run.prepare Run.applyFlags Pipeline.buildAll
    rw [flags, inputs]
    exact ⟨_, rfl⟩
  exact ⟨⟨e, setup, scope, []⟩, ⟨_, none, _, _, _, rfl, checks, loaded, configured, built⟩, name,
    flags, rfl⟩

theorem empty_succeeds :
    (called (Host.plain [] ["work"]) .validate ["e.yaml", "-C", "."] (.start emptyFiles)).1 =
        .exit 0 ∧
      (called (Host.plain [] ["work"]) .run ["e.yaml", "-C", "."] (.start emptyFiles)).1 =
        .exit 0 := by
  obtain ⟨b, begins, name, flags, none⟩ := exists_begins
  have calls : Calls "e.yaml" "." ["e.yaml", "-C", "."] := .inFront (by decide) (by decide)
  obtain ⟨validates, runs, -⟩ := validate_and_run calls (Host.plain [] ["work"]) (.start emptyFiles)
  have listable : Listable b.experiment := by
    rw [Listable, name, flags]
    exact ⟨⟨_, plain_of_not_mem (by decide)⟩, _, plain_of_not_mem (by decide)⟩
  have reportable : b.Reportable emptyFiles := by
    rw [Begun.Reportable, none]
    exact fun _ mem => nomatch mem
  exact ⟨validates.mpr ⟨b, _, begins, listable⟩, runs.mpr ⟨b, _, begins, reportable⟩⟩

end Branchwork.Command
