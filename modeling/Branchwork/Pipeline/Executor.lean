import Branchwork.Failure

/-!
# Running jobs in order

Jobs run strictly in order, each on the value of the one before. A job that fails stops the run; the
failure is part of the result and stops nothing else. Behind the last job that is run a hook is
called, one for a run that came to its end and another one for a failure.
-/

namespace Branchwork

/-- A step that was run: its name, and its value or why it failed. -/
structure Trace where
  step : String
  result : Except Fault Value

/-- The result of a pipeline: its label, the count of steps that were run, what each of them came
to, and the failure, if there was one. -/
structure Outcome where
  label : String
  count : Nat
  trace : List Trace
  failure : Option Failure

/-- Whether all steps of a pipeline succeeded. -/
def Outcome.isSuccess (o : Outcome) : Bool := o.failure.isNone

/-- What is run as one step: its name, and what it makes of a value in a state. -/
structure Job (σ : Type) where
  name : String
  run : Value → ExceptT Fault (StateM σ) Value

/-- What is called at the end of a run: one action if all jobs succeeded, and one that is given the
failure if a job failed. Either may be left out. -/
structure Hooks (σ : Type) where
  onDone : Option (StateM σ Unit) := none
  onError : Option (Failure → StateM σ Unit) := none

namespace Executor

variable {σ : Type}

/-- Runs jobs in order, the first one with the given index; `done` tells of the jobs before, last
one first. -/
def runJobs (label : String) (index : Nat) (done : List Trace) :
    List (Job σ) → Value → StateM σ Outcome
  | [], _ => return ⟨label, index, done.reverse, none⟩
  | job :: rest, v => do
    -- a fault of the job becomes part of the outcome
    match ← (job.run v).run with
    | .ok v => runJobs label (index + 1) (⟨job.name, .ok v⟩ :: done) rest v
    | .error cause =>
      return { label, count := index + 1, trace := (⟨job.name, .error cause⟩ :: done).reverse,
               failure := some ⟨label, index, job.name, cause⟩ }

/-- Calls the hook that an outcome asks for. -/
def callHook (hooks : Hooks σ) (outcome : Outcome) : StateM σ Unit :=
  match outcome.failure with
  | none => hooks.onDone.getD (pure ())
  | some failure => hooks.onError.elim (pure ()) (· failure)

/-- Runs jobs and calls a hook. The first job is given null. -/
def run (hooks : Hooks σ) (label : String) (jobs : List (Job σ)) : StateM σ Outcome := do
  let outcome ← runJobs label 0 [] jobs .null
  callHook hooks outcome
  return outcome

end Executor

end Branchwork
