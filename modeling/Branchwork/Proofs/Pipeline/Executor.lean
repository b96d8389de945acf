import Branchwork.Pipeline.Run
import Branchwork.Proofs.Action

/-!
# What the executor promises

Jobs that succeed form a chain: each is run once, on the value of the one before and in the state
that it left. `Chained` says so of jobs, and what the executor does follows from it: it runs jobs as
long as they form a chain, and what ends the chain decides about the outcome and about the hook.

Main results:

* `runJobs_chained` — jobs that form a chain are run in order, and then those behind them.
* `run_fulfils` — the outcome of a run, the state behind it and the hook that was called, for jobs
  that all succeed and for jobs of which one fails.
-/

namespace Branchwork

variable {σ : Type}

/-! ## Chains of jobs -/

/-- What a job makes of a value in a state, and the state behind it. -/
def Job.on (job : Job σ) (v : Value) (s : σ) : Except Fault Value × σ := StateT.run (job.run v).run s

/-- Jobs that succeed in order on a value in a state, with what each of them came to, the last value
and the state behind them. -/
inductive Chained : List (Job σ) → Value → σ → List Trace → Value → σ → Prop
  | done {v : Value} {s : σ} : Chained [] v s [] v s
  | next {job : Job σ} {rest : List (Job σ)} {trace : List Trace} {v y v' : Value} {s mid s' : σ} :
      job.on v s = (.ok y, mid) → Chained rest y mid trace v' s' →
      Chained (job :: rest) v s (⟨job.name, .ok y⟩ :: trace) v' s'

/-- Jobs form a chain, or they do up to the first one that fails. -/
theorem exists_chained (jobs : List (Job σ)) (v : Value) (s : σ) :
    (∃ trace v' s', Chained jobs v s trace v' s') ∨
      ∃ before job after trace v' mid cause s', jobs = before ++ job :: after ∧
        Chained before v s trace v' mid ∧ job.on v' mid = (.error cause, s') := by
  induction jobs generalizing v s with
  | nil => exact .inl ⟨[], v, s, .done⟩
  | cons job rest ih =>
    rcases ran : job.on v s with ⟨cause | y, mid⟩
    · exact .inr ⟨[], job, rest, [], v, s, cause, mid, rfl, .done, ran⟩
    · rcases ih y mid with ⟨trace, v', s', all⟩ | ⟨before, failing, after, trace, v', mid', cause, s',
        split, some_of, fails⟩
      · exact .inl ⟨_, v', s', .next ran all⟩
      · exact .inr ⟨job :: before, failing, after, _, v', mid', cause, s',
          congrArg (job :: ·) split, .next ran some_of, fails⟩

namespace Executor

/-! ## Running -/

theorem runJobs_cons (label : String) (index : Nat) (done : List Trace) (job : Job σ)
    (rest : List (Job σ)) (v : Value) (s : σ) :
    StateT.run (runJobs label index done (job :: rest) v) s =
      match job.on v s with
      | (.ok y, mid) =>
        StateT.run (runJobs label (index + 1) (⟨job.name, .ok y⟩ :: done) rest y) mid
      | (.error cause, mid) =>
        ({ label, count := index + 1, trace := (⟨job.name, .error cause⟩ :: done).reverse,
           failure := some ⟨label, index, job.name, cause⟩ }, mid) := by
  rcases ran : job.on v s with ⟨cause | y, mid⟩ <;> unfold Job.on at ran <;>
    rw [runJobs, StateT.run_bind, ran] <;> rfl

/-- Jobs that form a chain are run in order, and then those behind them on what the chain left. -/
theorem runJobs_chained (label : String) {before : List (Job σ)} {v v' : Value} {s s' : σ}
    {trace : List Trace} (chained : Chained before v s trace v' s') (index : Nat)
    (done : List Trace) (after : List (Job σ)) :
    StateT.run (runJobs label index done (before ++ after) v) s =
      StateT.run (runJobs label (index + before.length) (trace.reverse ++ done) after v') s' := by
  induction chained generalizing index done with
  | done => rfl
  | @next job rest v s y mid trace v' s' ran _ ih =>
    rw [List.cons_append, runJobs_cons, ran]
    dsimp only
    rw [ih, List.length_cons, List.reverse_cons, List.append_assoc, Nat.add_assoc,
      Nat.add_comm 1]
    rfl

/-- What jobs come to is told under their label. -/
theorem label_runJobs (label : String) (index : Nat) (done : List Trace) (jobs : List (Job σ))
    (v : Value) (s : σ) : (StateT.run (runJobs label index done jobs v) s).1.label = label := by
  induction jobs generalizing index done v s with
  | nil => rfl
  | cons job rest ih =>
    rw [runJobs_cons]
    rcases job.on v s with ⟨cause | y, mid⟩
    · rfl
    · exact ih (index + 1) _ y mid

theorem run_eq (hooks : Hooks σ) (label : String) (jobs : List (Job σ)) (s : σ) :
    StateT.run (run hooks label jobs) s =
      ((StateT.run (runJobs label 0 [] jobs .null) s).1,
        (StateT.run (callHook hooks (StateT.run (runJobs label 0 [] jobs .null) s).1)
          (StateT.run (runJobs label 0 [] jobs .null) s).2).2) := by
  rw [run, StateT.run_bind]
  rfl

/-- Jobs that all succeed give a success that counts them, and the hook for it has been called. -/
theorem run_of_chained (hooks : Hooks σ) (label : String) {jobs : List (Job σ)} {v : Value}
    {s s' : σ} {trace : List Trace} (chained : Chained jobs .null s trace v s') :
    StateT.run (run hooks label jobs) s =
      (⟨label, jobs.length, trace, none⟩, (StateT.run (hooks.onDone.getD (pure ())) s').2) := by
  have ran := runJobs_chained label chained 0 [] []
  rw [List.append_nil, Nat.zero_add, List.append_nil] at ran
  rw [run_eq, ran, runJobs, List.reverse_reverse]
  rfl

/-- A job that fails ends the run, and the hook for a failure has been called with it. -/
theorem run_of_fails (hooks : Hooks σ) (label : String) {before : List (Job σ)} {job : Job σ}
    {v : Value} {s mid s' : σ} {trace : List Trace} {cause : Fault}
    (chained : Chained before .null s trace v mid) (fails : job.on v mid = (.error cause, s'))
    (after : List (Job σ)) :
    StateT.run (run hooks label (before ++ job :: after)) s =
      (⟨label, before.length + 1, trace ++ [⟨job.name, .error cause⟩],
          some ⟨label, before.length, job.name, cause⟩⟩,
        (StateT.run
          (hooks.onError.elim (pure ()) (· ⟨label, before.length, job.name, cause⟩)) s').2) := by
  have ran := runJobs_chained label chained 0 [] (job :: after)
  rw [runJobs_cons, fails, Nat.zero_add, List.append_nil] at ran
  dsimp only at ran
  rw [List.reverse_cons, List.reverse_reverse] at ran
  rw [run_eq, ran]
  rfl

/-- The first job is run on null and each other one on the value of the one before it. If all of
them succeed, the outcome is a success that counts them, and the one hook has been called, once and
last. If one fails, the ones before it have been run, each once and in order, and none behind it; the
outcome counts the jobs up to the one that failed and names it with its place and its cause, and the
other hook has been called, once and last, with the failure that the outcome has. One of the two is
always so, and the outcome tells which. -/
theorem run_fulfils (hooks : Hooks σ) (label : String) (jobs : List (Job σ)) (s : σ) :
    (∀ trace v s', Chained jobs .null s trace v s' →
      StateT.run (run hooks label jobs) s =
        (⟨label, jobs.length, trace, none⟩, (StateT.run (hooks.onDone.getD (pure ())) s').2)) ∧
    (∀ before job after trace v mid cause s', jobs = before ++ job :: after →
      Chained before .null s trace v mid → job.on v mid = (.error cause, s') →
      ∃ failure : Failure, failure = ⟨label, before.length, job.name, cause⟩ ∧
        StateT.run (run hooks label jobs) s =
          (⟨label, before.length + 1, trace ++ [⟨job.name, .error cause⟩], some failure⟩,
            (StateT.run (hooks.onError.elim (pure ()) (· failure)) s').2)) ∧
    ((StateT.run (run hooks label jobs) s).1.isSuccess = true ∧
        (∃ trace v s', Chained jobs .null s trace v s') ∨
      (StateT.run (run hooks label jobs) s).1.isSuccess = false ∧
        ∃ before job after trace v mid cause s', jobs = before ++ job :: after ∧
          Chained before .null s trace v mid ∧ job.on v mid = (.error cause, s')) := by
  refine ⟨fun _ _ _ chained => run_of_chained hooks label chained, ?_, ?_⟩
  · rintro before job after trace v mid cause s' rfl chained fails
    exact ⟨_, rfl, run_of_fails hooks label chained fails after⟩
  · rcases exists_chained jobs .null s with ⟨trace, v, s', chained⟩ | ⟨before, job, after, trace, v,
      mid, cause, s', rfl, chained, fails⟩
    · refine .inl ⟨?_, trace, v, s', chained⟩
      rw [run_of_chained hooks label chained]
      rfl
    · refine .inr ⟨?_, before, job, after, trace, v, mid, cause, s', rfl, chained, fails⟩
      rw [run_of_fails hooks label chained fails after]
      rfl

end Executor

/-! ## The steps of a pipeline -/

namespace Pipeline

theorem runSteps_cons (scope : Stage.Scope) (label : String) (index : Nat) (done : List Trace)
    (step : Step) (rest : List Step) (v : Value) (w : World) :
    StateT.run (runSteps scope label index done (step :: rest) v) w =
      match (step.run scope v).on w with
      | (.ok y, mid) =>
        StateT.run (runSteps scope label (index + 1) (⟨step.name, .ok y⟩ :: done) rest y) mid
      | (.error cause, mid) =>
        ({ label, count := index + 1, trace := (⟨step.name, .error cause⟩ :: done).reverse,
           failure := some ⟨label, index, step.name, cause⟩ }, mid) := by
  unfold runSteps
  rw [List.map_cons, Executor.runJobs_cons]
  rw [show (step.job scope).on v w = (step.run scope v).on w from rfl]
  rcases (step.run scope v).on w with ⟨cause | y, mid⟩ <;> rfl

/-- The notice that an outcome is worth. -/
def noticeOf (outcome : Outcome) : Notice :=
  outcome.failure.elim (.pipelineDone outcome.label) .pipelineFailed

/-- A pipeline comes to what its steps come to, and gives one notice behind them. -/
theorem run_of_runSteps {scope : Stage.Scope} {p : Pipeline} {w behind : World} {outcome : Outcome}
    (ran : StateT.run (runSteps scope p.label 0 [] p.steps .null) w = (outcome, behind)) :
    StateT.run (p.run scope) w =
      (outcome, { behind with notices := behind.notices ++ [noticeOf outcome] }) := by
  unfold runSteps at ran
  have label := Executor.label_runJobs p.label 0 [] (p.steps.map (·.job scope)) .null w
  rw [ran] at label
  rw [run, Executor.run_eq, ran]
  unfold Executor.callHook noticeOf
  rw [label]
  cases outcome.failure
  · rfl
  · rfl

theorem outcome_run (scope : Stage.Scope) (p : Pipeline) (w : World) :
    (StateT.run (p.run scope) w).1 =
      (StateT.run (runSteps scope p.label 0 [] p.steps .null) w).1 := by
  rw [run_of_runSteps rfl]
  rfl

theorem files_run (scope : Stage.Scope) (p : Pipeline) (w : World) :
    (StateT.run (p.run scope) w).2.files =
      (StateT.run (runSteps scope p.label 0 [] p.steps .null) w).2.files := by
  rw [run_of_runSteps rfl]
  rfl

end Pipeline

end Branchwork
