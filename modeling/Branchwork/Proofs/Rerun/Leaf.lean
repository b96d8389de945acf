import Branchwork.Proofs.Pipeline.Keys
import Branchwork.Proofs.Walk.Inputs

/-!
# What a pipeline writes

A pipeline for files reads its input, takes the mapping through the stages of its leaf, and delivers it
to the output. `follow` does the same without steps, and keeps book of the places that are written on
the way: `writtenBy` are those of all pipelines in a row.

Main results:

* `over_follow` — a pipeline ends and leaves files as the book says.
* `follow_left` — nothing but the places in the book changes.
-/

namespace Branchwork.Rerun

open Action Pipeline Stage FileSystem Walk
open Experiment (Edge Input Leaf StageRef)

variable {scope : Stage.Scope} {input : Input}

/-- A stage of a leaf that writes the mapping and passes it on, or that applies a stage which looks at
no files but the templates, and writes none. -/
def PassingRef : StageRef → Prop
  | .named name => ∃ s ∈ passing, s.name = name
  | .materialize _ => True

/-- What a stage of a leaf makes of a mapping. -/
def passStage (scope : Stage.Scope) (input : Input) : StageRef → Mapping → FileSystem → Passed
  | .named name, entries, fs =>
    let ran := (applyStage scope name entries).over fs
    ⟨ran.1, ran.2, []⟩
  | .materialize target, entries, fs =>
    let written := write scope input target entries fs
    ⟨written.fault?.elim (.ok entries) .error, written.files, written.places⟩

/-- Takes a mapping through the stages of a leaf, and delivers it to the output. -/
def passLeaf (scope : Stage.Scope) (input : Input) (output : String) :
    List StageRef → Mapping → FileSystem → Written
  | [], entries, fs => deliver scope input ⟨[], output, .sink⟩ entries fs
  | stage :: rest, entries, fs =>
    let passed := passStage scope input stage entries fs
    match passed.result with
    | .error cause => ⟨some cause, passed.files, passed.places⟩
    | .ok entries =>
      let others := passLeaf scope input output rest entries passed.files
      { others with places := passed.places ++ others.places }

/-- What a pipeline comes to: the fault that stopped it, the files behind, and the places of the files
that it has opened. -/
def follow (scope : Stage.Scope) (p : Pipeline) (fs : FileSystem) : Written :=
  match (readInput scope p.input).over fs with
  | (.error cause, behind) => ⟨some cause, behind, []⟩
  | (.ok entries, behind) => passLeaf scope p.input p.leaf.output p.leaf.stages entries behind

/-- The places of the files that pipelines open, one behind the other. -/
def writtenBy (scope : Stage.Scope) : List Pipeline → FileSystem → List Location
  | [], _ => []
  | p :: rest, fs =>
    (follow scope p fs).places ++ writtenBy scope rest (follow scope p fs).files

/-! ## What a pipeline leaves -/

/-- The stages of a leaf look at no files but the templates. -/
def PassingLeaf (stages : List StageRef) : Prop := ∀ stage ∈ stages, PassingRef stage

theorem passStage_left (input : Input) {stage : StageRef} (passing : PassingRef stage)
    (entries : Mapping) {fs : FileSystem} (ready : Ready scope fs) :
    Left scope fs (passStage scope input stage entries fs).files
      (passStage scope input stage entries fs).places := by
  cases stage with
  | named name =>
    obtain ⟨s, mem, rfl⟩ := passing
    have reads : Reads (applyStage scope s.name entries) := reads_applyStage mem entries
    unfold passStage
    dsimp only
    rw [reads fs]
    exact .refl ready
  | materialize target => exact write_left target entries ready

theorem passLeaf_left (input : Input) (output : String) {stages : List StageRef}
    (passing : PassingLeaf stages) (entries : Mapping) {fs : FileSystem} (ready : Ready scope fs) :
    Left scope fs (passLeaf scope input output stages entries fs).files
      (passLeaf scope input output stages entries fs).places := by
  induction stages generalizing entries fs with
  | nil => exact deliver_left input _ entries ready
  | cons stage rest ih =>
    have first := passStage_left input (passing stage List.mem_cons_self) entries ready
    rw [passLeaf]
    dsimp only
    -- a stage that fails ends the leaf
    split
    · exact first
    · exact first.trans (ih (fun other mem => passing other (List.mem_cons_of_mem _ mem)) _ first.ready)

theorem follow_left {p : Pipeline} (passing : PassingLeaf p.leaf.stages) {fs : FileSystem}
    (ready : Ready scope fs) :
    Left scope fs (follow scope p fs).files (follow scope p fs).places := by
  have reads : Reads (readInput scope p.input) := reads_readInput p.input
  unfold follow
  obtain ⟨cause, ran⟩ | ⟨entries, ran⟩ := reads.over_cases fs
  · rw [ran]
    exact .refl ready
  · rw [ran]
    exact passLeaf_left p.input p.leaf.output passing entries ready

/-! ## The steps of a pipeline -/

section

variable (onFiles : scope.OnFiles)
include onFiles

theorem passStage_over (input : Input) {stage : StageRef} (passing : PassingRef stage) :
    ∃ step, resolve .builtIn input stage = .ok step ∧ ∀ (entries : Mapping) fs,
      (step.run scope (.map entries)).over fs =
        asValue ((passStage scope input stage entries fs).result,
          (passStage scope input stage entries fs).files) := by
  cases stage with
  | named name =>
    obtain ⟨s, -, rfl⟩ := passing
    exact resolve_over onFiles input s
  | materialize target =>
    -- the step hands the mapping on if it was written
    obtain ⟨step, resolved, wrote⟩ := materializeStep_over onFiles input target
    refine ⟨step, resolved, fun entries fs => ?_⟩
    rw [wrote]
    unfold passStage
    dsimp only
    cases (write scope input target entries fs).fault? <;> rfl

theorem deliver_over (input : Input) (output : String) :
    ∃ sinks, sinkSteps .builtIn input output = .ok sinks ∧ ∀ (entries : Mapping) fs,
      ∃ result, (Step.runAll scope sinks (.map entries)).over fs =
          (result, (passLeaf scope input output [] entries fs).files) ∧
        faultOf result = (passLeaf scope input output [] entries fs).fault? := by
  obtain ⟨steps, sinks, none_left, delivered, does⟩ := sinkSteps_over onFiles input
    (show Passing (⟨[], output, .sink⟩ : Edge).stages from fun _ mem => by cases mem)
  cases none_left
  -- the edge has no stages, so what it passes on it delivers at once
  refine ⟨sinks, delivered, fun entries fs => ?_⟩
  obtain ⟨result, ran, fault⟩ := does entries fs
  refine ⟨result, ran, fault.trans ?_⟩
  change faultOf ((deliver scope input ⟨[], output, .sink⟩ entries fs).fault?.elim _ _) =
    (deliver scope input ⟨[], output, .sink⟩ entries fs).fault?
  cases (deliver scope input ⟨[], output, .sink⟩ entries fs).fault? <;> rfl

/-- The steps of a leaf do what the book says. -/
theorem passLeaf_over (input : Input) (output : String) {stages : List StageRef}
    (passing : PassingLeaf stages) :
    ∃ steps sinks, stages.mapM (resolve .builtIn input) = .ok steps ∧
      sinkSteps .builtIn input output = .ok sinks ∧ ∀ (entries : Mapping) fs,
        ∃ result, (Step.runAll scope (steps ++ sinks) (.map entries)).over fs =
            (result, (passLeaf scope input output stages entries fs).files) ∧
          faultOf result = (passLeaf scope input output stages entries fs).fault? := by
  induction stages with
  | nil =>
    obtain ⟨sinks, delivered, does⟩ := deliver_over onFiles input output
    exact ⟨[], sinks, rfl, delivered, does⟩
  | cons stage rest ih =>
    -- the step of this stage, and behind it the steps of the others
    obtain ⟨step, resolved, applies⟩ := passStage_over onFiles input (passing stage List.mem_cons_self)
    obtain ⟨steps, sinks, resolved', delivered, goesOn⟩ :=
      ih fun other mem => passing other (List.mem_cons_of_mem _ mem)
    refine ⟨step :: steps, sinks, ?_, delivered, fun entries fs => ?_⟩
    · rw [List.mapM_cons, resolved, resolved']
      rfl
    · rw [List.cons_append, runAll_cons_over onFiles, applies, passLeaf]
      dsimp only [asValue]
      cases (passStage scope input stage entries fs).result with
      | error cause => exact ⟨.error cause, rfl, rfl⟩
      | ok behind => exact goesOn behind _

/-- A pipeline ends and leaves files as the book says. -/
theorem over_follow {leaf : Leaf} {p : Pipeline} (built : build .builtIn input leaf = .ok p)
    (fromFiles : input.kind.isCapture = false) (passing : PassingLeaf leaf.stages) (fs : FileSystem) :
    (p.over scope fs).1.failure.map (·.cause) = (follow scope p fs).fault? ∧
      (p.over scope fs).2 = (follow scope p fs).files := by
  obtain ⟨source, acquired, reads⟩ := inputSteps_over onFiles input fromFiles
  obtain ⟨steps, sinks, resolved, delivered, does⟩ :=
    passLeaf_over onFiles input leaf.output passing
  have whole : build .builtIn input leaf = .ok ⟨input, leaf, source ++ (steps ++ sinks)⟩ := by
    refine bind_eq_ok.mpr ⟨source, acquired, bind_eq_ok.mpr ⟨steps, resolved,
      bind_eq_ok.mpr ⟨sinks, delivered, ?_⟩⟩⟩
    rw [← List.append_assoc]
    rfl
  rw [whole] at built
  cases built
  obtain ⟨cause, behind⟩ :=
    over_eq_runAll onFiles ⟨input, leaf, source ++ (steps ++ sinks)⟩ fs
  rw [cause, behind, runAll_append_over onFiles, reads, asValue]
  -- the source stops the pipeline, or hands its mapping to the steps of the leaf
  unfold follow
  rcases (readInput scope input).over fs with ⟨fault | entries, mid⟩
  · exact ⟨rfl, rfl⟩
  · obtain ⟨result, ran, fault⟩ := does entries mid
    dsimp only [Except.map]
    rw [ran]
    exact ⟨fault, rfl⟩

end

end Branchwork.Rerun
