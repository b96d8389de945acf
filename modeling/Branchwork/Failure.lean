import Branchwork.Fault

/-!
# Failures and results

A step that fails while a pipeline is running is reported with its place. A run collects the
failures of its pipelines.
-/

namespace Branchwork

/-- A step that failed while a pipeline was running: the label of the pipeline, the index and the
name of the step, and the cause. -/
structure Failure where
  pipeline : String
  index : Nat
  step : String
  cause : Fault

/-- A failure in words. -/
def Failure.message (f : Failure) : String :=
  s!"Pipeline '{f.pipeline}' failed at unit {f.index} ({f.step}): {f.cause.kind}: {f.cause.message}"

/-- The result of a run: the count of pipelines and the failures, in order. -/
structure RunResult where
  pipelines : Nat
  failures : List Failure

/-- Whether no pipeline of a run failed. -/
def RunResult.isSuccess (r : RunResult) : Bool := r.failures.isEmpty

end Branchwork
