import Branchwork.Proofs.Pipeline.Collision
import Branchwork.Proofs.Walk.Growth

/-!
# Steps of a walk

What the steps of a pipeline do to a mapping is what a walk does to it: the steps that acquire an
input read it, the steps of a stage apply it, and the steps that write a mapping write it.

Main results: `inputSteps_over`, `edgeSteps_over` and `sinkSteps_over`, one for each part of a
pipeline.
-/

namespace Branchwork.Walk

open Experiment Action Pipeline Stage

variable {scope : Stage.Scope} (onFiles : scope.OnFiles) (input : Input)

/-- What came of an action on mappings, as what came of a step. -/
def asValue (result : Except Fault Mapping × FileSystem) : Except Fault Value × FileSystem :=
  (result.1.map .map, result.2)

theorem onValues_over (scope : Stage.Scope) (s : Stage) (entries : Mapping) (fs : FileSystem) :
    (Step.run scope (.onValues (.stage s)) (.map entries)).over fs =
      asValue ((entries.mapValues (s.run scope)).over fs) := by
  rw [Step.run_onValues, over_bind _ fun entries => filesOnly_pure _, Step.run_stage]
  rcases (entries.mapValues (s.run scope)).over fs with ⟨_ | behind, fs⟩ <;> rfl

/-- The step that applies a stage to every value, and flattens the mappings that come of it if it is
one of those that make mappings. -/
def perValue (s : Stage) : Step :=
  if flattened.contains s.name then .chain s.name [.onValues (.stage s), .joinKeys]
  else .onValues (.stage s)

theorem resolve_name (s : Stage) : resolve .builtIn input (.named s.name) = .ok (perValue s) := by
  have plain : materializeTarget? s.name = none := by cases s <;> rfl
  have found : stageStep .builtIn s.name = .ok (.stage s) := by
    unfold stageStep
    rw [lookup_name]
  rw [resolve, plain, found]
  rfl

section

include onFiles

/-! ## Writing -/

theorem writeSteps_over (target : String) (entries : Mapping) (fs : FileSystem) :
    ∃ v, (Step.runAll scope [.rename input.pattern target, .pairs, .onEach (.stage .toFile)]
        (.map entries)).over fs =
      ((write scope input target entries fs).fault?.elim (.ok v) .error,
        (write scope input target entries fs).files) := by
  rw [runAll_cons_over onFiles, Step.run_rename, over_bind _ fun named => filesOnly_pure _, over_ofExcept]
  rcases write_cases scope input target entries with
    ⟨fault, renamed, refused⟩ | ⟨named, renamed, writes, whole⟩
  · rw [renamed, refused]
    exact ⟨.null, rfl⟩
  · obtain ⟨fault?, g, places, writes⟩ := writes fs
    obtain ⟨items, wrote⟩ := writes.mapItems_over
    rw [renamed, whole, writeEach_eq writes]
    dsimp only [Except.mapError]
    rw [over_pure]
    dsimp only
    rw [runAll_cons_over onFiles, Step.run_pairs, over_pure]
    dsimp only
    rw [runAll_single_over onFiles, Step.run_onEach, over_bind _ fun items => filesOnly_pure _, wrote]
    refine ⟨.list items, ?_⟩
    cases fault? <;> rfl

theorem materializeStep_over (target : String) :
    ∃ step, materializeStep .builtIn input target = .ok step ∧ ∀ (entries : Mapping) fs,
      (step.run scope (.map entries)).over fs =
        ((write scope input target entries fs).fault?.elim (.ok (.map entries)) .error,
          (write scope input target entries fs).files) := by
  refine ⟨_, materializeStep_eq input target, fun entries fs => ?_⟩
  obtain ⟨v, wrote⟩ := writeSteps_over onFiles input target entries fs
  rw [run_materializer, over_map, writers, wrote]
  cases (write scope input target entries fs).fault? <;> rfl

/-! ## Stages -/

theorem resolve_over (s : Stage) :
    ∃ step, resolve .builtIn input (.named s.name) = .ok step ∧ ∀ (entries : Mapping) fs,
      (step.run scope (.map entries)).over fs =
        asValue ((applyStage scope s.name entries).over fs) := by
  refine ⟨_, resolve_name input s, fun entries fs => ?_⟩
  have applied := onValues_over scope s entries fs
  rw [applyStage_eq, over_bind _ fun entries => filesOnly_pure _]
  unfold perValue
  by_cases nested : flattened.contains s.name = true
  · rw [if_pos nested, Step.run, runAll_cons_over onFiles, applied]
    simp only [if_pos nested]
    rcases (entries.mapValues (s.run scope)).over fs with ⟨_ | behind, fs⟩
    · rfl
    · dsimp only [asValue, Except.map]
      rw [runAll_single_over onFiles, Step.run]
      rfl
  · rw [if_neg nested, applied]
    simp only [if_neg nested]
    rcases (entries.mapValues (s.run scope)).over fs with ⟨_ | behind, fs⟩ <;> rfl

theorem stageSteps_over {stages : List String} (passing : Passing stages) :
    ∃ steps, (stages.map .named).mapM (resolve .builtIn input) = .ok steps ∧ ∀ (entries : Mapping) fs,
      (Step.runAll scope steps (.map entries)).over fs =
        asValue ((applyStages scope stages entries).over fs) := by
  induction stages with
  | nil => exact ⟨[], rfl, fun _ _ => rfl⟩
  | cons name rest ih =>
    obtain ⟨s, -, rfl⟩ := passing name List.mem_cons_self
    have others : Passing rest := fun name mem => passing name (List.mem_cons_of_mem _ mem)
    obtain ⟨step, resolved, ran⟩ := resolve_over onFiles input s
    obtain ⟨steps, resolved', ran'⟩ := ih others
    refine ⟨step :: steps, ?_, fun entries fs => ?_⟩
    · rw [List.map_cons, List.mapM_cons, resolved, resolved']
      rfl
    · rw [runAll_cons_over onFiles, ran, applyStages,
        over_bind _ fun entries => filesOnly_applyStages others entries]
      rcases (applyStage scope s.name entries).over fs with ⟨_ | behind, fs⟩
      · rfl
      · exact ran' behind fs

/-! ## Edges -/

/-- The steps for an edge that leads to a node. -/
theorem edgeSteps_over {edge : Edge} (passing : Passing edge.stages) (inner : edge.policy ≠ .sink) :
    ∃ steps, (edge.steps true).mapM (resolve .builtIn input) = .ok steps ∧ ∀ (entries : Mapping) fs,
      (Step.runAll scope steps (.map entries)).over fs =
        asValue ((pass scope edge.stages (keep scope input edge) entries fs).result,
          (pass scope edge.stages (keep scope input edge) entries fs).files) := by
  obtain ⟨steps, resolved, ran⟩ := stageSteps_over onFiles input passing
  obtain ⟨step, written, wrote⟩ := materializeStep_over onFiles input edge.output
  unfold Edge.steps pass keep
  cases policy : edge.policy with
  | sink => exact absurd policy inner
  -- nothing is written, so the steps are those of the stages
  | passthrough =>
    refine ⟨steps, by simpa using resolved, fun entries fs => ?_⟩
    rw [ran]
    rcases (applyStages scope edge.stages entries).over fs with ⟨_ | behind, fs⟩ <;> rfl
  -- one more step writes the mapping and hands it on
  | materialize =>
    refine ⟨steps ++ [step], ?_, fun entries fs => ?_⟩
    · have last : [StageRef.materialize edge.output].mapM (resolve .builtIn input) = .ok [step] := by
        rw [List.mapM_cons, resolve, written]
        rfl
      rw [List.mapM_append, resolved]
      show (do
        let more ← [StageRef.materialize edge.output].mapM (resolve .builtIn input)
        pure (steps ++ more) : Except Fault (List Step)) = _
      rw [last]
      rfl
    · rw [runAll_append_over onFiles, ran]
      rcases (applyStages scope edge.stages entries).over fs with ⟨_ | behind, fs⟩
      · rfl
      · dsimp only [asValue, Except.map]
        rw [runAll_single_over onFiles, wrote, if_pos rfl]
        cases (write scope input edge.output behind fs).fault? <;> rfl

/-- The steps that deliver a mapping. -/
theorem deliverSteps_over (edge : Edge) :
    ∃ sinks, sinkSteps .builtIn input edge.output = .ok sinks ∧ ∀ (entries : Mapping) fs,
      ∃ result, (Step.runAll scope sinks (.map entries)).over fs =
          (result, (deliver scope input edge entries fs).files) ∧
        faultOf result = (deliver scope input edge entries fs).fault? := by
  unfold sinkSteps deliver
  by_cases console : edge.output = consoleOutput
  · -- what is shown on the console leaves the files alone
    simp only [if_pos console]
    refine ⟨[.stage .taggedConsoleOutput], rfl, fun entries fs => ?_⟩
    have shows : Step.run scope (.stage .taggedConsoleOutput) (.map entries) =
        runConsole (.map entries) := by
      rw [Step.run]
      rfl
    have reads := (filesFree_runConsole (.map entries)).reads fs
    rw [runAll_single_over onFiles, shows]
    exact ⟨_, Prod.ext rfl reads, rfl⟩
  · simp only [if_neg console]
    refine ⟨_, rfl, fun entries fs => ?_⟩
    obtain ⟨v, wrote⟩ := writeSteps_over onFiles input edge.output entries fs
    refine ⟨_, wrote, ?_⟩
    cases (write scope input edge.output entries fs).fault? <;> rfl

/-- The steps for an edge that ends a path. -/
theorem sinkSteps_over {edge : Edge} (passing : Passing edge.stages) :
    ∃ steps sinks, (edge.steps false).mapM (resolve .builtIn input) = .ok steps ∧
      sinkSteps .builtIn input edge.output = .ok sinks ∧ ∀ (entries : Mapping) fs,
        ∃ result, (Step.runAll scope (steps ++ sinks) (.map entries)).over fs =
            (result, (pass scope edge.stages (deliver scope input edge) entries fs).files) ∧
          faultOf result =
            faultOf (pass scope edge.stages (deliver scope input edge) entries fs).result := by
  obtain ⟨steps, resolved, ran⟩ := stageSteps_over onFiles input passing
  have resolved : (edge.steps false).mapM (resolve .builtIn input) = .ok steps := by
    simpa [Edge.steps] using resolved
  obtain ⟨sinks, built, delivers⟩ := deliverSteps_over onFiles input edge
  refine ⟨steps, sinks, resolved, built, fun entries fs => ?_⟩
  -- the stages come first, and what they hand over is delivered
  rw [runAll_append_over onFiles, ran]
  unfold pass
  rcases (applyStages scope edge.stages entries).over fs with ⟨fault | behind, fs⟩
  · exact ⟨.error fault, rfl, rfl⟩
  · obtain ⟨result, delivered, fault⟩ := delivers behind fs
    refine ⟨result, delivered, ?_⟩
    rw [fault]
    dsimp only
    cases (deliver scope input edge behind fs).fault? <;> rfl

/-! ## Inputs -/

omit onFiles in
/-- The steps that acquire the files of an input. -/
theorem inputSteps_eq (fromFiles : input.kind.isCapture = false) :
    inputSteps .builtIn input =
      .ok [.fileNames input.pattern, .asKeys, .onValues (.stage (reader input))] := by
  have found : stageStep .builtIn (readerName input.kind) = .ok (.stage (reader input)) := by
    unfold reader
    cases kind : input.kind with
    | file => rfl
    | fileText => rfl
    | _ => rw [kind] at fromFiles; cases fromFiles
  unfold inputSteps sourceSteps
  rw [found, fromFiles]
  rfl

/-- They read the input. -/
theorem inputSteps_over (fromFiles : input.kind.isCapture = false) :
    ∃ steps, inputSteps .builtIn input = .ok steps ∧ ∀ fs,
      (Step.runAll scope steps .null).over fs = asValue ((readInput scope input).over fs) := by
  refine ⟨_, inputSteps_eq input fromFiles, fun fs => ?_⟩
  -- the search, the keys and the reader are three steps here and one action there
  have reads : ∀ entries : Mapping, FilesOnly (entries.mapValues ((reader input).run scope)) := by
    intro entries
    refine Mapping.filesOnly_mapValues (fun v => ?_) entries
    exact filesOnly_run onFiles v (reader input)
  have rest : ∀ names : List String, FilesOnly (do
      let entries ← ofShape (Mapping.ofKeys (names.map .text))
      entries.mapValues ((reader input).run scope)) := fun names =>
    FilesOnly.bind (filesOnly_ofExcept .shape _) reads
  unfold readInput
  rw [runAll_cons_over onFiles, Step.run, over_bind _ fun names => filesOnly_pure _, over_bind _ rest]
  rcases (scope.findFiles input.pattern).over fs with ⟨_ | names, fs⟩
  · rfl
  dsimp only
  rw [over_pure]
  dsimp only
  rw [runAll_cons_over onFiles, Step.run_asKeys, over_bind _ fun entries => filesOnly_pure _,
    over_bind _ reads, ofShape, over_ofExcept]
  cases Mapping.ofKeys (names.map .text) with
  | error problem => rfl
  | ok entries =>
    dsimp only [Except.mapError]
    rw [over_pure]
    dsimp only
    rw [runAll_single_over onFiles, onValues_over]

end

end Branchwork.Walk
