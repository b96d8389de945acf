import Branchwork.Proofs.Pipeline.Over
import Branchwork.Proofs.Run.Lines
import Branchwork.Proofs.Run.Prepare

/-!
# Isolated failures

A run goes through all its pipelines, whatever fails: each pipeline starts from the files that the
one before has left, the failures are collected in order, and one notice is given at the end.

There is one exception. The line that reports a failure is put together from two escaped texts, the
label and the cause, and together they may form a tag that neither of them holds. If that tag closes
nothing, the console refuses the line, and the refusal leaves the run: the pipelines behind are not
run, and there is neither a result nor a notice of the end.

Main result: `experiment_isolates` — what a run comes to in each case, with the exact condition for
the exception.
-/

namespace Branchwork.Run

open Action

/-! ## Reports -/

/-- The console refuses the report on an outcome. -/
def Refused (outcome : Outcome) (problem : Markup.Problem) : Prop :=
  ∃ failure, outcome.failure = some failure ∧
    Markup.plain (failureLine outcome.label failure.cause) = .error problem

/-- A world with other files, log and console, and with further notices. -/
def Moved (w : World) (files : FileSystem) (notices : List Notice) (w' : World) : Prop :=
  ∃ log shown, w' = ⟨files, log, shown, w.captures, w.notices ++ notices⟩

theorem Moved.refl (w : World) : Moved w w.files [] w :=
  ⟨w.log, w.shown, by rw [List.append_nil]⟩

theorem Moved.trans {w w' w'' : World} {files files' : FileSystem} {notices notices' : List Notice}
    (first : Moved w files notices w') (second : Moved w' files' notices' w'') :
    Moved w files' (notices ++ notices') w'' := by
  obtain ⟨log, shown, rfl⟩ := first
  obtain ⟨log', shown', rfl⟩ := second
  exact ⟨log', shown', by rw [List.append_assoc]⟩

theorem Moved.files_eq {w w' : World} {files : FileSystem} {notices : List Notice}
    (moved : Moved w files notices w') : w'.files = files := by
  obtain ⟨log, shown, rfl⟩ := moved
  rfl

/-- A line that is accepted is shown, and nothing else happens. -/
theorem printMarkup_moved {line : String} (accepted : ∃ shown, Markup.plain line = .ok shown)
    (w : World) : ∃ w', Moved w w.files [] w' ∧ (printMarkup line).on w = (.ok (), w') := by
  obtain ⟨shown, plain⟩ := accepted
  rw [on_printMarkup_ok plain]
  exact ⟨_, ⟨w.log, _, by rw [List.append_nil]⟩, rfl⟩

theorem report_on (outcome : Outcome) (w : World) :
    ∃ w', Moved w w.files [] w' ∧
      ((∀ problem, ¬ Refused outcome problem) → (report outcome.label outcome).on w = (.ok (), w')) ∧
      ∀ problem, Refused outcome problem →
        (report outcome.label outcome).on w = (.error (.markup problem), w') := by
  unfold report
  cases failed : outcome.failure with
  | none =>
    -- a success is reported by a line that is always accepted
    obtain ⟨w', moved, shown⟩ := printMarkup_moved (plain_doneLine outcome.label) w
    refine ⟨w', moved, fun _ => shown, fun problem refused => ?_⟩
    obtain ⟨failure, some_failed, -⟩ := refused
    rw [failed] at some_failed
    cases some_failed
  | some failure =>
    dsimp only
    -- a failure is logged before its line is shown, so the log is there even if the line is refused
    rw [on_bind_ok (on_log _ _ w)]
    obtain ⟨logged, isLogged⟩ : ∃ v, v =
      ({ w with log := w.log ++ [⟨.error, s!"failed pipeline {failure.message}"⟩] } : World) :=
      ⟨_, rfl⟩
    have moved : Moved w w.files [] logged := by
      rw [isLogged]
      exact ⟨_, w.shown, by rw [List.append_nil]⟩
    rw [← isLogged]
    cases plain : Markup.plain (failureLine outcome.label failure.cause) with
    | ok line =>
      obtain ⟨w', moved', shown⟩ := printMarkup_moved ⟨line, plain⟩ logged
      rw [moved.files_eq] at moved'
      refine ⟨w', moved.trans moved', fun _ => shown, fun problem refused => ?_⟩
      obtain ⟨failure', same, refuses⟩ := refused
      rw [failed] at same
      cases same
      rw [plain] at refuses
      cases refuses
    | error problem =>
      refine ⟨logged, moved, fun accepted => absurd ⟨failure, failed, plain⟩ (accepted problem),
        fun problem' refused => ?_⟩
      obtain ⟨failure', same, refuses⟩ := refused
      rw [failed] at same
      cases same
      exact on_printMarkup_error refuses logged

/-! ## Running pipelines -/

section

variable {scope : Stage.Scope} (onFiles : scope.OnFiles)
include onFiles

theorem label_over (p : Pipeline) (fs : FileSystem) : (p.over scope fs).1.label = p.label := by
  cases Pipeline.over_ends onFiles p fs with
  | success _ label _ _ => exact label
  | failure _ _ _ label _ _ => exact label

theorem label_of_mem_each {pipelines : List Pipeline} {fs : FileSystem} {r : Outcome × FileSystem}
    (mem : r ∈ Pipeline.each scope pipelines fs) : ∃ p ∈ pipelines, r.1.label = p.label := by
  induction pipelines generalizing fs with
  | nil => cases mem
  | cons p rest ih =>
    rcases List.mem_cons.mp mem with rfl | mem
    · exact ⟨p, List.mem_cons_self, label_over onFiles p fs⟩
    · obtain ⟨p', mem', same⟩ := ih mem
      exact ⟨p', List.mem_cons_of_mem _ mem', same⟩

/-- The report on a label without an opening bracket is never refused. -/
theorem not_refused_of_labels {pipelines : List Pipeline} (fs : FileSystem)
    (labels : ∀ p ∈ pipelines, '[' ∉ p.label.toList) :
    ∀ r ∈ Pipeline.each scope pipelines fs, ∀ problem, ¬ Refused r.1 problem := by
  rintro r mem problem ⟨failure, -, refused⟩
  obtain ⟨p, isBuilt, label⟩ := label_of_mem_each onFiles mem
  have apart : '[' ∉ r.1.label.toList := by
    rw [label]
    exact labels p isBuilt
  obtain ⟨shown, accepted⟩ := plain_failureLine r.1.label failure.cause (.inl apart)
  rw [accepted] at refused
  cases refused

/-- A pipeline is run whatever is shown of it, and gives its failure unless the report on it is
refused. -/
theorem runPipeline_on (setup : Setup) (count index : Nat) (p : Pipeline) (w : World) :
    ∃ w', Moved w (p.over scope w.files).2 [Pipeline.noticeOf (p.over scope w.files).1] w' ∧
      ((∀ problem, ¬ Refused (p.over scope w.files).1 problem) →
        (runPipeline setup scope count index p).on w = (.ok (p.over scope w.files).1.failure, w')) ∧
      ∀ problem, Refused (p.over scope w.files).1 problem →
        (runPipeline setup scope count index p).on w = (.error (.markup problem), w') := by
  -- the line that shows the start, if there is one, moves nothing but the console
  obtain ⟨begun, moved, begins⟩ : ∃ begun, Moved w w.files [] begun ∧
      (runPipeline setup scope count index p).on w = (do
        let outcome ← (p.run scope : StateM World Outcome)
        report p.label outcome
        return outcome.failure : Action (Option Failure)).on begun := by
    unfold runPipeline
    split
    · obtain ⟨begun, moved, shown⟩ := printMarkup_moved (plain_startLine count index p.label) w
      exact ⟨begun, moved, on_bind_ok shown⟩
    · exact ⟨w, .refl w, rfl⟩
  obtain ⟨log, shown, ran⟩ := Pipeline.run_eq_over onFiles p begun
  rw [moved.files_eq] at ran
  obtain ⟨done, isDone⟩ : ∃ v, v = (⟨(p.over scope w.files).2, log, shown, begun.captures,
    begun.notices ++ [Pipeline.noticeOf (p.over scope w.files).1]⟩ : World) := ⟨_, rfl⟩
  have moved' : Moved begun (p.over scope w.files).2
      [Pipeline.noticeOf (p.over scope w.files).1] done := ⟨log, shown, isDone⟩
  rw [← isDone] at ran
  -- the pipeline itself has told its end by now, and only the report is left
  obtain ⟨w', moved'', accepted, refused⟩ := report_on (p.over scope w.files).1 done
  rw [label_over onFiles] at accepted refused
  rw [moved'.files_eq] at moved''
  have goes_on : (liftM (p.run scope) : Action Outcome).on begun =
      (.ok (p.over scope w.files).1, done) := by
    rw [on_lift, ran]
  refine ⟨w', ?_, fun fine => ?_, fun problem refuses => ?_⟩
  · have whole := (moved.trans moved').trans moved''
    rwa [List.nil_append, List.append_nil] at whole
  · rw [begins, on_bind_ok goes_on, on_bind_ok (accepted fine)]
    rfl
  · rw [begins, on_bind_ok goes_on, on_bind_error (refused problem refuses)]

/-- Pipelines go on to the end if no report is refused, and stop behind the first one that is. -/
theorem runPipelines_on (setup : Setup) (count index : Nat) (pipelines : List Pipeline)
    (w : World) :
    ((∀ r ∈ Pipeline.each scope pipelines w.files, ∀ problem, ¬ Refused r.1 problem) →
      ∃ w', Moved w (Pipeline.filesBehind w.files (Pipeline.each scope pipelines w.files))
          ((Pipeline.each scope pipelines w.files).map (Pipeline.noticeOf ·.1)) w' ∧
        (runPipelines setup scope count index pipelines).on w =
          (.ok ((Pipeline.each scope pipelines w.files).filterMap (·.1.failure)), w')) ∧
    ∀ before r behind problem, Pipeline.each scope pipelines w.files = before ++ r :: behind →
      (∀ r' ∈ before, ∀ problem, ¬ Refused r'.1 problem) → Refused r.1 problem →
      ∃ w', Moved w r.2 ((before ++ [r]).map (Pipeline.noticeOf ·.1)) w' ∧
        (runPipelines setup scope count index pipelines).on w = (.error (.markup problem), w') := by
  induction pipelines generalizing index w with
  | nil =>
    refine ⟨fun _ => ⟨w, .refl w, rfl⟩, fun before r behind problem split => ?_⟩
    simp [Pipeline.each] at split
  | cons p rest ih =>
    obtain ⟨mid, moved, goesOn, stops⟩ := runPipeline_on onFiles setup count index p w
    obtain ⟨all, first⟩ := ih (index + 1) mid
    rw [moved.files_eq] at all first
    rw [Pipeline.each, runPipelines]
    constructor
    · intro fine
      have here := fine (p.over scope w.files) List.mem_cons_self
      obtain ⟨w', moved', ran⟩ := all fun r mem => fine r (List.mem_cons_of_mem _ mem)
      refine ⟨w', ?_, ?_⟩
      · rw [Pipeline.filesBehind_cons]
        exact moved.trans moved'
      · rw [on_bind_ok (goesOn here), on_bind_ok ran, List.filterMap_cons]
        cases (p.over scope w.files).1.failure <;> rfl
    · intro before r behind problem split fine refused
      -- either the first pipeline is the one whose report is refused, or it is one of the rest
      cases before with
      | nil =>
        cases split
        exact ⟨mid, moved, on_bind_error (stops problem refused)⟩
      | cons r' before =>
        obtain ⟨rfl, later⟩ := List.cons.inj split
        have here := fine _ List.mem_cons_self
        obtain ⟨w', moved', ran⟩ := first before r behind problem later
          (fun r' mem => fine r' (List.mem_cons_of_mem _ mem)) refused
        exact ⟨w', moved.trans moved', by rw [on_bind_ok (goesOn here), on_bind_error ran]⟩

theorem attempts_each (pipelines : List Pipeline) (fs : FileSystem) :
    Pipeline.Attempts scope fs pipelines (Pipeline.each scope pipelines fs) := by
  induction pipelines generalizing fs with
  | nil => exact .done
  | cons p rest ih => exact .next (Pipeline.over_ends onFiles p fs) (ih _)

end

/-! ## Whole runs -/

theorem showSummary_on (result : RunResult) (w : World) :
    ∃ w', Moved w w.files [] w' ∧ (showSummary result).on w = (.ok (), w') :=
  ⟨_, ⟨w.log, _, by rw [List.append_nil]⟩, rfl⟩

theorem giveNotice_on (notice : Notice) (w : World) :
    ∃ w', Moved w w.files [notice] w' ∧ (giveNotice notice).on w = (.ok (), w') :=
  ⟨_, ⟨w.log, w.shown, rfl⟩, rfl⟩

section

variable {setup : Setup} {e : Experiment} {w w' : World} {scope : Stage.Scope}
  {pipelines : List Pipeline} (prepared : (prepare setup e).on w = (.ok scope, w'))
  (built : Pipeline.buildAll setup.registry e = .ok pipelines)
include prepared built

/-- Up to its first pipeline a run changes the log and the console only. -/
theorem experiment_begins :
    ∃ begun, Moved w w.files [] begun ∧ (experiment setup e).on w = (do
      let failures ← runPipelines setup scope pipelines.length 0 pipelines
      let result : RunResult := ⟨pipelines.length, failures⟩
      showSummary result
      giveNotice (.runDone result)
      return result : Action RunResult).on begun := by
  obtain ⟨begun, begins, headed⟩ := printMarkup_moved (plain_headLine e.name pipelines.length) w'
  have quiet : Moved w w.files [] w' := by
    obtain ⟨log, same⟩ := prepare_onlyLogs setup e w
    rw [prepared] at same
    rw [show w' = _ from same]
    exact ⟨log, w.shown, by rw [List.append_nil]⟩
  have moved := quiet.trans begins
  rw [quiet.files_eq] at moved
  have ready := build_on prepared
  rw [built] at ready
  refine ⟨begun, moved, ?_⟩
  rw [experiment, on_bind_ok ready]
  exact on_bind_ok headed

/-- A run none of whose reports is refused goes through all its pipelines and gives its result. -/
theorem experiment_ends
    (fine : ∀ r ∈ Pipeline.each scope pipelines w.files, ∀ problem, ¬ Refused r.1 problem) :
    ∃ result final, (experiment setup e).on w = (.ok result, final) ∧
      result = ⟨pipelines.length,
        (Pipeline.each scope pipelines w.files).filterMap (·.1.failure)⟩ ∧
      Moved w (Pipeline.filesBehind w.files (Pipeline.each scope pipelines w.files))
        ((Pipeline.each scope pipelines w.files).map (Pipeline.noticeOf ·.1) ++ [.runDone result])
        final := by
  have onFiles := prepare_onFiles prepared
  obtain ⟨begun, moved, reaches⟩ := experiment_begins prepared built
  obtain ⟨all, -⟩ := runPipelines_on onFiles setup pipelines.length 0 pipelines begun
  rw [moved.files_eq] at all
  obtain ⟨ran, moved', goesOn⟩ := all fine
  obtain ⟨result, isResult⟩ : ∃ result : RunResult, result =
    ⟨pipelines.length, (Pipeline.each scope pipelines w.files).filterMap (·.1.failure)⟩ := ⟨_, rfl⟩
  obtain ⟨summed, shows, shown⟩ := showSummary_on result ran
  obtain ⟨told, gives, given⟩ := giveNotice_on (.runDone result) summed
  rw [moved'.files_eq] at shows
  rw [shows.files_eq] at gives
  have notified := ((moved.trans moved').trans shows).trans gives
  rw [List.nil_append, List.append_nil] at notified
  refine ⟨result, told, ?_, isResult, notified⟩
  rw [reaches, on_bind_ok goesOn]
  dsimp only
  rw [← isResult, on_bind_ok shown, on_bind_ok given, on_pure]

/-- A run stops behind the first pipeline whose report is refused. -/
theorem experiment_stops {before behind : List (Outcome × FileSystem)} {r : Outcome × FileSystem}
    {problem : Markup.Problem}
    (split : Pipeline.each scope pipelines w.files = before ++ r :: behind)
    (fine : ∀ r' ∈ before, ∀ problem, ¬ Refused r'.1 problem) (refused : Refused r.1 problem) :
    ∃ final, (experiment setup e).on w = (.error (.markup problem), final) ∧
      Moved w r.2 ((before ++ [r]).map (Pipeline.noticeOf ·.1)) final := by
  have onFiles := prepare_onFiles prepared
  obtain ⟨begun, moved, reaches⟩ := experiment_begins prepared built
  obtain ⟨-, first⟩ := runPipelines_on onFiles setup pipelines.length 0 pipelines begun
  rw [moved.files_eq] at first
  obtain ⟨stopped, moved', failed⟩ := first before r behind problem split fine refused
  exact ⟨stopped, by rw [reaches, on_bind_error failed], moved.trans moved'⟩

end

theorem exists_first_refused {results : List (Outcome × FileSystem)}
    (h : ¬ ∀ r ∈ results, ∀ problem, ¬ Refused r.1 problem) :
    ∃ before r behind problem, results = before ++ r :: behind ∧
      (∀ r' ∈ before, ∀ problem, ¬ Refused r'.1 problem) ∧ Refused r.1 problem := by
  induction results with
  | nil => exact absurd (List.forall_mem_nil _) h
  | cons r rest ih =>
    by_cases here : ∃ problem, Refused r.1 problem
    · obtain ⟨problem, refused⟩ := here
      exact ⟨[], r, rest, problem, rfl, List.forall_mem_nil _, refused⟩
    · have fine : ∀ problem, ¬ Refused r.1 problem := fun problem refused => here ⟨problem, refused⟩
      obtain ⟨before, r', behind, problem, split, before_fine, refused⟩ :=
        ih fun others => h (List.forall_mem_cons.mpr ⟨fine, others⟩)
      exact ⟨r :: before, r', behind, problem, by rw [split]; rfl,
        List.forall_mem_cons.mpr ⟨fine, before_fine⟩, refused⟩

/-- A run that starts its pipelines gives a result exactly if no report is refused. -/
theorem experiment_ok_iff {setup : Setup} {e : Experiment} {w w' : World} {scope : Stage.Scope}
    {pipelines : List Pipeline} (prepared : (prepare setup e).on w = (.ok scope, w'))
    (built : Pipeline.buildAll setup.registry e = .ok pipelines) :
    (∃ result final, (experiment setup e).on w = (.ok result, final)) ↔
      ∀ r ∈ Pipeline.each scope pipelines w.files, ∀ problem, ¬ Refused r.1 problem := by
  constructor
  · rintro ⟨result, final, ran⟩
    by_contra some_refused
    obtain ⟨before, r, behind, problem, split, fine, refused⟩ := exists_first_refused some_refused
    obtain ⟨final', stopped, -⟩ := experiment_stops prepared built split fine refused
    rw [stopped] at ran
    cases ran
  · intro fine
    obtain ⟨result, final, ran, -, -⟩ := experiment_ends prepared built fine
    exact ⟨result, final, ran⟩

/-- A run that cannot be prepared or built fails with the fault of that, before any pipeline starts.
Otherwise all pipelines are attempted in order, each from the files that the one before has left, and
the run gives the failures in that order and one notice at the end, behind those of the pipelines. The
exception is a failure whose report is refused: the run fails with it right behind its pipeline. That
takes a label with an opening bracket and a cause with a closing one. -/
theorem experiment_isolates (setup : Setup) (e : Experiment) (w : World) :
    (∀ fault w', (prepare setup e).on w = (.error fault, w') →
      (experiment setup e).on w = (.error fault, w') ∧ ∃ log, w' = { w with log }) ∧
    ∀ scope w', (prepare setup e).on w = (.ok scope, w') →
      (∀ fault, Pipeline.buildAll setup.registry e = .error fault →
        (experiment setup e).on w = (.error fault, w') ∧ ∃ log, w' = { w with log }) ∧
      ∀ pipelines, Pipeline.buildAll setup.registry e = .ok pipelines →
        ∃ results, Pipeline.Attempts scope w.files pipelines results ∧
          ((∀ r ∈ results, ∀ problem, ¬ Refused r.1 problem) →
            ∃ result final, (experiment setup e).on w = (.ok result, final) ∧
              result.pipelines = pipelines.length ∧
              result.failures = results.filterMap (·.1.failure) ∧
              (result.isSuccess ↔ ∀ r ∈ results, r.1.failure = none) ∧
              Moved w (Pipeline.filesBehind w.files results)
                (results.map (Pipeline.noticeOf ·.1) ++ [.runDone result]) final) ∧
          (∀ before r behind problem, results = before ++ r :: behind →
            (∀ r' ∈ before, ∀ problem, ¬ Refused r'.1 problem) → Refused r.1 problem →
            ∃ final, (experiment setup e).on w = (.error (.markup problem), final) ∧
              Moved w r.2 ((before ++ [r]).map (Pipeline.noticeOf ·.1)) final) ∧
          ∀ r ∈ results, ∀ problem, Refused r.1 problem →
            ∃ failure, r.1.failure = some failure ∧ '[' ∈ r.1.label.toList ∧
              ']' ∈ failure.cause.message.toList := by
  -- up to the end of the build there are only log messages, and a fault ends the run there
  have stops : ∀ fault w', (build setup e).on w = (.error fault, w') →
      (experiment setup e).on w = (.error fault, w') ∧ ∃ log, w' = { w with log } := by
    intro fault w' failed
    obtain ⟨log, same⟩ := build_onlyLogs setup e w
    rw [failed] at same
    exact ⟨by rw [experiment, on_bind_error failed], log, same⟩
  refine ⟨fun fault w' failed => stops fault w' ?_, fun scope w' prepared => ?_⟩
  · rw [build, on_bind_error failed]
  have built := build_on prepared
  have onFiles := prepare_onFiles prepared
  refine ⟨fun fault failed => stops fault w' ?_, fun pipelines ok => ?_⟩
  · rw [built, failed]
    rfl
  refine ⟨_, attempts_each onFiles pipelines w.files, fun fine => ?_,
    fun before r behind problem split fine refused => ?_, fun r mem problem refused => ?_⟩
  · obtain ⟨result, final, ran, rfl, moved⟩ := experiment_ends prepared ok fine
    refine ⟨_, final, ran, rfl, rfl, ?_, moved⟩
    simp [RunResult.isSuccess, List.isEmpty_iff, List.filterMap_eq_nil_iff]
  · exact experiment_stops prepared ok split fine refused
  · -- a line without an opening bracket in front, or without a closing one behind, is accepted
    obtain ⟨failure, failed, refuses⟩ := refused
    refine ⟨failure, failed, ?_, ?_⟩
    · by_contra no_opening
      obtain ⟨shown, accepted⟩ := plain_failureLine r.1.label failure.cause (.inl no_opening)
      rw [accepted] at refuses
      cases refuses
    · by_contra no_closing
      obtain ⟨shown, accepted⟩ := plain_failureLine r.1.label failure.cause (.inr no_closing)
      rw [accepted] at refuses
      cases refuses

end Branchwork.Run
