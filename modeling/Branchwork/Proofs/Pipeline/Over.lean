import Branchwork.Proofs.Pipeline.Executor
import Branchwork.Proofs.Result
import Branchwork.Proofs.Step.FilesOnly

/-!
# Pipelines over files

What a pipeline comes to is decided by the files that it starts from. `Pipeline.over` gives its
outcome with the files behind it, `Pipeline.Ends` says what the outcome tells about the steps, and
`Pipeline.each` puts pipelines one behind the other: each starts from the files that the one before
has left, also if that one failed.

Main results:

* `run_eq_over` — a pipeline that is run in a world comes to what it comes to over the files, and
  gives one notice.
* `over_ends` — the outcome is a success if all steps succeed, and else names the step that fails,
  behind the steps that succeeded.
-/

namespace Branchwork

open Action

/-! ## Steps over files -/

/-- Runs steps over files, as `runSteps` does in a world. -/
def Pipeline.stepsOver (scope : Stage.Scope) (label : String) (index : Nat) (done : List Trace) :
    List Step → Value → FileSystem → Outcome × FileSystem
  | [], _, fs => (⟨label, index, done.reverse, none⟩, fs)
  | step :: rest, v, fs =>
    match (step.run scope v).over fs with
    | (.ok v, fs) => stepsOver scope label (index + 1) (⟨step.name, .ok v⟩ :: done) rest v fs
    | (.error cause, fs) =>
      ({ label, count := index + 1, trace := (⟨step.name, .error cause⟩ :: done).reverse,
         failure := some ⟨label, index, step.name, cause⟩ }, fs)

/-- What a pipeline comes to over files, and the files behind it. -/
def Pipeline.over (scope : Stage.Scope) (p : Pipeline) (fs : FileSystem) : Outcome × FileSystem :=
  stepsOver scope p.label 0 [] p.steps .null fs

namespace Pipeline

theorem runSteps_eq_stepsOver {scope : Stage.Scope} (onFiles : scope.OnFiles) (label : String)
    (index : Nat) (done : List Trace) (steps : List Step) (v : Value) (w : World) :
    ∃ log shown, StateT.run (runSteps scope label index done steps v) w =
      ((stepsOver scope label index done steps v w.files).1,
        ⟨(stepsOver scope label index done steps v w.files).2, log, shown, w.captures,
          w.notices⟩) := by
  induction steps generalizing index done v w with
  | nil => exact ⟨w.log, w.shown, rfl⟩
  | cons step rest ih =>
    obtain ⟨log, shown, ran⟩ := (Step.filesOnly_run onFiles step v).on_eq w
    rw [runSteps_cons, ran, stepsOver]
    rcases (step.run scope v).over w.files with ⟨_ | v', fs⟩
    · exact ⟨log, shown, rfl⟩
    · exact ih (index + 1) (⟨step.name, .ok v'⟩ :: done) v'
        ⟨fs, log, shown, w.captures, w.notices⟩

/-- A pipeline sees nothing of the world but its files, and gives one notice. -/
theorem run_eq_over {scope : Stage.Scope} (onFiles : scope.OnFiles) (p : Pipeline) (w : World) :
    ∃ log shown, StateT.run (p.run scope) w =
      ((p.over scope w.files).1,
        ⟨(p.over scope w.files).2, log, shown, w.captures,
          w.notices ++ [noticeOf (p.over scope w.files).1]⟩) := by
  obtain ⟨log, shown, ran⟩ := runSteps_eq_stepsOver onFiles p.label 0 [] p.steps .null w
  exact ⟨log, shown, run_of_runSteps ran⟩

/-! ## Outcomes -/

/-- How steps end that are run over files, the first one with the given index: all succeed, or one
fails behind those that succeeded. -/
inductive StepsEnd (scope : Stage.Scope) (label : String) (index : Nat) (steps : List Step)
    (v : Value) (fs : FileSystem) : Outcome → FileSystem → Prop
  | success {outcome v' fs'} : (Step.runAll scope steps v).over fs = (.ok v', fs') →
      outcome.label = label → outcome.count = index + steps.length → outcome.failure = none →
      StepsEnd scope label index steps v fs outcome fs'
  | failure {outcome before step behind v' cause mid fs'} : steps = before ++ step :: behind →
      (Step.runAll scope before v).over fs = (.ok v', mid) →
      (step.run scope v').over mid = (.error cause, fs') →
      outcome.label = label → outcome.count = index + before.length + 1 →
      outcome.failure = some ⟨label, index + before.length, step.name, cause⟩ →
      StepsEnd scope label index steps v fs outcome fs'

theorem runAll_cons_over {scope : Stage.Scope} (onFiles : scope.OnFiles) (step : Step)
    (rest : List Step) (v : Value) (fs : FileSystem) :
    (Step.runAll scope (step :: rest) v).over fs = match (step.run scope v).over fs with
      | (.ok v, fs) => (Step.runAll scope rest v).over fs
      | (.error fault, fs) => (.error fault, fs) := by
  rw [Step.runAll, over_bind _ fun v => Step.filesOnly_runAll onFiles rest v]
  rcases (step.run scope v).over fs with ⟨_ | v', fs'⟩ <;> rfl

theorem runAll_append_over {scope : Stage.Scope} (onFiles : scope.OnFiles)
    (before behind : List Step) (v : Value) (fs : FileSystem) :
    (Step.runAll scope (before ++ behind) v).over fs = match (Step.runAll scope before v).over fs with
      | (.ok v, fs) => (Step.runAll scope behind v).over fs
      | (.error fault, fs) => (.error fault, fs) := by
  induction before generalizing v fs with
  | nil => rfl
  | cons step rest ih =>
    rw [List.cons_append, runAll_cons_over onFiles, runAll_cons_over onFiles]
    rcases (step.run scope v).over fs with ⟨_ | v, fs⟩
    · rfl
    · exact ih v fs

theorem runAll_single_over {scope : Stage.Scope} (onFiles : scope.OnFiles) (step : Step)
    (v : Value) (fs : FileSystem) :
    (Step.runAll scope [step] v).over fs = (step.run scope v).over fs := by
  rw [runAll_cons_over onFiles]
  rcases (step.run scope v).over fs with ⟨_ | v, fs⟩ <;> rfl

theorem stepsOver_ends {scope : Stage.Scope} (onFiles : scope.OnFiles) (label : String)
    (index : Nat) (done : List Trace) (steps : List Step) (v : Value) (fs : FileSystem) :
    StepsEnd scope label index steps v fs (stepsOver scope label index done steps v fs).1
      (stepsOver scope label index done steps v fs).2 := by
  have none_left : ∀ v fs, (Step.runAll scope [] v).over fs = (.ok v, fs) := by
    intro v fs
    rw [Step.runAll]
    rfl
  have first := runAll_cons_over onFiles
  induction steps generalizing index done v fs with
  | nil => exact .success (none_left v fs) rfl rfl rfl
  | cons step rest ih =>
    rw [stepsOver]
    rcases ran : (step.run scope v).over fs with ⟨_ | v', fs'⟩
    · exact .failure rfl (none_left v fs) ran rfl rfl rfl
    · -- the steps behind this one go on from what it came to
      have goes_on : ∀ steps, (Step.runAll scope (step :: steps) v).over fs =
          (Step.runAll scope steps v').over fs' := by
        intro steps
        rw [first, ran]
      have later := ih (index + 1) (⟨step.name, .ok v'⟩ :: done) v' fs'
      dsimp only
      cases later with
      | success all label count faultless =>
        refine .success ((goes_on rest).trans all) label ?_ faultless
        rw [count, List.length_cons]
        omega
      | failure split all fails label count here =>
        refine .failure (congrArg (step :: ·) split) ((goes_on _).trans all) fails label ?_ ?_
        · rw [count, List.length_cons]
          omega
        · rw [here, List.length_cons]
          congr 2
          omega

/-- How a pipeline ends over files. -/
def Ends (scope : Stage.Scope) (p : Pipeline) (fs : FileSystem) (outcome : Outcome)
    (behind : FileSystem) : Prop :=
  StepsEnd scope p.label 0 p.steps .null fs outcome behind

theorem over_ends {scope : Stage.Scope} (onFiles : scope.OnFiles) (p : Pipeline)
    (fs : FileSystem) : p.Ends scope fs (p.over scope fs).1 (p.over scope fs).2 :=
  stepsOver_ends onFiles _ _ _ _ _ _

/-- A pipeline fails for the fault of its steps, and leaves the files that they leave. -/
theorem over_eq_runAll {scope : Stage.Scope} (onFiles : scope.OnFiles) (p : Pipeline)
    (fs : FileSystem) :
    (p.over scope fs).1.failure.map (·.cause) =
        faultOf ((Step.runAll scope p.steps .null).over fs).1 ∧
      (p.over scope fs).2 = ((Step.runAll scope p.steps .null).over fs).2 := by
  cases over_ends onFiles p fs with
  | success ran _ _ faultless =>
    rw [ran, faultless]
    exact ⟨rfl, rfl⟩
  | failure split ran failed _ _ fails =>
    rw [split, runAll_append_over onFiles, ran]
    dsimp only
    rw [runAll_cons_over onFiles, failed, fails]
    exact ⟨rfl, rfl⟩

/-! ## Pipelines in a row -/

/-- The outcomes of pipelines that are attempted in order, each once and from the files that the one
before has left, with the files behind each. -/
inductive Attempts (scope : Stage.Scope) :
    FileSystem → List Pipeline → List (Outcome × FileSystem) → Prop
  | done {fs} : Attempts scope fs [] []
  | next {fs p rest outcome behind results} : p.Ends scope fs outcome behind →
      Attempts scope behind rest results →
      Attempts scope fs (p :: rest) ((outcome, behind) :: results)

/-- What becomes of pipelines one behind the other: the outcome of each, with the files behind it. -/
def each (scope : Stage.Scope) : List Pipeline → FileSystem → List (Outcome × FileSystem)
  | [], _ => []
  | p :: rest, fs => p.over scope fs :: each scope rest (p.over scope fs).2

theorem length_each (scope : Stage.Scope) (pipelines : List Pipeline) (fs : FileSystem) :
    (each scope pipelines fs).length = pipelines.length := by
  induction pipelines generalizing fs with
  | nil => rfl
  | cons p rest ih => rw [each, List.length_cons, List.length_cons, ih]

/-- The files behind pipelines in a row. -/
def filesBehind (fs : FileSystem) (results : List (Outcome × FileSystem)) : FileSystem :=
  (results.getLast?.map (·.2)).getD fs

theorem filesBehind_cons (fs : FileSystem) (result : Outcome × FileSystem)
    (rest : List (Outcome × FileSystem)) :
    filesBehind fs (result :: rest) = filesBehind result.2 rest := by
  unfold filesBehind
  cases rest with
  | nil => rfl
  | cons next rest =>
    rw [List.getLast?_cons_cons]
    cases last : (next :: rest).getLast? with
    | none => simp at last
    | some result => rfl

end Pipeline

end Branchwork
