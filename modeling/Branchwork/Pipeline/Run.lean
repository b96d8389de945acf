import Branchwork.Pipeline.Build
import Branchwork.Pipeline.Executor

/-!
# Running a pipeline

The steps of a pipeline are the jobs of a run. The world is given notice of its end.
-/

namespace Branchwork

/-- A step as a job. -/
def Step.job (scope : Stage.Scope) (step : Step) : Job World := ⟨step.name, step.run scope⟩

namespace Pipeline

/-- Runs steps in order, the first one with the given index; `done` tells of the steps before, last
one first. -/
def runSteps (scope : Stage.Scope) (label : String) (index : Nat) (done : List Trace)
    (steps : List Step) (v : Value) : StateM World Outcome :=
  Executor.runJobs label index done (steps.map (·.job scope)) v

/-- Gives a notice. -/
def notify (notice : Notice) : StateM World Unit :=
  modify fun w => { w with notices := w.notices ++ [notice] }

/-- The hooks that give notice of the end of a pipeline. -/
def noticeHooks (label : String) : Hooks World :=
  ⟨some (notify (.pipelineDone label)), some fun failure => notify (.pipelineFailed failure)⟩

/-- Runs a pipeline and gives notice of its end. Its first step is given null. -/
def run (scope : Stage.Scope) (p : Pipeline) : StateM World Outcome :=
  Executor.run (noticeHooks p.label) p.label (p.steps.map (·.job scope))

end Pipeline

end Branchwork
