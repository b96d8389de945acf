import Branchwork.Proofs.Experiment.EdgeBelow
import Branchwork.Proofs.Experiment.WellFormed
import Branchwork.Proofs.Run.Prepare

/-!
# Faults of a build

All pipelines of an experiment are built before the first one runs. A build finds its faults along
the leaves of the tree, but what it fails for can be said of the tree: a cycle in reach of an input,
or the name of a stage on an edge in reach that is not registered.

Main result: `Pipeline.buildAll_isOk_iff_and_first_fault` — when a build succeeds, with which fault
it fails otherwise, and that nothing has run either way.
-/

namespace Branchwork

namespace Pipeline

open Experiment

/-! ## Names of stages -/

/-- A name that an edge may hold: it is registered, or says that an output is written. -/
def Known (registry : Registry Stage) (name : String) : Prop :=
  name ∈ registry.names ∨ materializeStart.toList <+: name.toList

instance (registry : Registry Stage) (name : String) : Decidable (Known registry name) :=
  inferInstanceAs (Decidable (_ ∨ _))

/-- The fault of a stage of a leaf, if it has one. -/
def faultOfStage (registry : Registry Stage) : StageRef → Option Fault
  | .materialize _ => none
  | .named name => if Known registry name then none else some (.unknownStage name registry.names)

theorem faultOf_stageStep (registry : Registry Stage) (name : String) :
    faultOf (stageStep registry name) =
      if name ∈ registry.names then none else some (.unknownStage name registry.names) := by
  unfold stageStep Registry.lookup
  have registered : (registry.entries.lookup name).isSome ↔ name ∈ registry.names :=
    lookup_isSome_iff registry.entries name
  cases found : registry.entries.lookup name with
  | some stage =>
    rw [found] at registered
    rw [if_pos (registered.mp rfl)]
    rfl
  | none =>
    rw [found] at registered
    rw [if_neg fun mem => by simpa using registered.mpr mem]
    rfl

/-- The stages that every pipeline needs: the readers, the writer of files and the console. -/
def needed : List String :=
  ["fileToJSON", "fileToString", "telemetrySave", "telemetrySaveNoStyle", "toFile",
    "taggedConsoleOutput"]

section

variable {registry : Registry Stage} (complete : ∀ name ∈ needed, name ∈ registry.names)
include complete

theorem stageStep_needed {name : String} (mem : name ∈ needed) :
    ∃ step, stageStep registry name = .ok step := by
  rw [← faultOf_eq_none, faultOf_stageStep, if_pos (complete name mem)]

theorem inputSteps_isOk (input : Input) : ∃ steps, inputSteps registry input = .ok steps := by
  have reader : readerName input.kind ∈ needed := by cases input.kind <;> decide
  obtain ⟨step, ok⟩ := stageStep_needed complete reader
  exact ⟨_, bind_eq_ok.mpr ⟨step, ok, rfl⟩⟩

theorem writeSteps_isOk (input : Input) (target : String) :
    ∃ steps, writeSteps registry input target = .ok steps := by
  obtain ⟨step, ok⟩ := stageStep_needed complete (show "toFile" ∈ needed by decide)
  exact ⟨_, bind_eq_ok.mpr ⟨step, ok, rfl⟩⟩

theorem materializeStep_isOk (input : Input) (target : String) :
    ∃ step, materializeStep registry input target = .ok step := by
  obtain ⟨steps, ok⟩ := writeSteps_isOk complete input target
  exact ⟨_, bind_eq_ok.mpr ⟨steps, ok, rfl⟩⟩

theorem sinkSteps_isOk (input : Input) (output : String) :
    ∃ steps, sinkSteps registry input output = .ok steps := by
  unfold sinkSteps
  split
  · obtain ⟨step, ok⟩ := stageStep_needed complete (show "taggedConsoleOutput" ∈ needed by decide)
    exact ⟨_, bind_eq_ok.mpr ⟨step, ok, rfl⟩⟩
  · exact writeSteps_isOk complete input output

theorem faultOf_resolve (input : Input) (stage : StageRef) :
    faultOf (resolve registry input stage) = faultOfStage registry stage := by
  cases stage with
  | materialize target =>
    have ok := materializeStep_isOk complete input target
    rw [resolve, faultOf_eq_none.mpr ok, faultOfStage]
  | named name =>
    rw [resolve, faultOfStage]
    unfold materializeTarget?
    by_cases start : materializeStart.toList <+: name.toList
    · have ok := materializeStep_isOk complete input
        (String.ofList (name.toList.drop materializeStart.length))
      rw [if_pos (List.isPrefixOf_iff_prefix.mpr start), if_pos (.inr start)]
      exact faultOf_eq_none.mpr ok
    · rw [if_neg fun h => start (List.isPrefixOf_iff_prefix.mp h)]
      have fault := faultOf_stageStep registry name
      have known : Known registry name ↔ name ∈ registry.names := or_iff_left start
      simp only [known, ← fault]
      rw [faultOf_bind]
      cases stageStep registry name <;> rfl

/-- A pipeline cannot be built if a stage of its leaf has a fault; the first one counts. -/
theorem faultOf_build (input : Input) (leaf : Leaf) :
    faultOf (build registry input leaf) = leaf.stages.findSome? (faultOfStage registry) := by
  obtain ⟨source, okSource⟩ := inputSteps_isOk complete input
  obtain ⟨sink, okSink⟩ := sinkSteps_isOk complete input leaf.output
  have stages := faultOf_mapM (resolve registry input) leaf.stages
  simp only [faultOf_resolve complete input] at stages
  rw [build, okSource, ← stages]
  change faultOf (leaf.stages.mapM (resolve registry input) >>= _) = _
  rw [faultOf_bind]
  cases leaf.stages.mapM (resolve registry input) with
  | error fault => rfl
  | ok stages => simp [okSink, bind, Except.bind, pure, Except.pure, faultOf]

/-- A cycle in reach of an input counts before every name. -/
theorem faultOf_buildInput (tree : Tree) (input : Input) :
    faultOf (buildInput registry tree input) =
      match tree.leaves input.identifier with
      | .error cycle => some (.cycle cycle)
      | .ok leaves => (leaves.flatMap Leaf.stages).findSome? (faultOfStage registry) := by
  unfold buildInput
  cases tree.leaves input.identifier with
  | error cycle => rfl
  | ok leaves =>
    change faultOf (leaves.mapM (build registry input)) = _
    rw [faultOf_mapM]
    simp only [faultOf_build complete input]
    induction leaves with
    | nil => rfl
    | cons leaf rest ih =>
      rw [List.findSome?_cons, List.flatMap_cons, List.findSome?_append, ih]
      cases leaf.stages.findSome? (faultOfStage registry) <;> rfl

end

theorem faultOf_buildInputs (registry : Registry Stage) (tree : Tree) (inputs : List Input) :
    faultOf (buildInputs registry tree inputs) =
      inputs.findSome? fun input => faultOf (buildInput registry tree input) := by
  induction inputs with
  | nil => rfl
  | cons input rest ih =>
    rw [buildInputs, faultOf_bind, List.findSome?_cons, ← ih]
    cases buildInput registry tree input with
    | error fault => rfl
    | ok first => cases buildInputs registry tree rest <;> rfl

/-! ## Faults of an input -/

/-- What a build needs of an input: no cycle in reach, and known names on all edges in reach. -/
structure Buildable (registry : Registry Stage) (tree : Tree) (input : Input) : Prop where
  acyclic : ¬ tree.CycleBelow input.identifier
  known : ∀ edge, tree.EdgeBelow input.identifier edge →
    ∀ name ∈ edge.stages, Known registry name

/-- The fault of an input: a cycle in reach, or else the first name that is not known, in the order
of the leaves and of the stages of each leaf. -/
inductive FaultOfInput (registry : Registry Stage) (tree : Tree) (input : Input) : Fault → Prop
  | cycle {cycle} : tree.CycleBelow input.identifier →
      tree.leaves input.identifier = .error cycle →
      FaultOfInput registry tree input (.cycle cycle)
  | unknownStage {leaves before name behind} : ¬ tree.CycleBelow input.identifier →
      tree.leaves input.identifier = .ok leaves →
      leaves.flatMap Leaf.stages = before ++ .named name :: behind →
      (∀ earlier, .named earlier ∈ before → Known registry earlier) → ¬ Known registry name →
      FaultOfInput registry tree input (.unknownStage name registry.names)

theorem faultOfStage_eq_none {registry : Registry Stage} {stages : List StageRef} :
    (∀ stage ∈ stages, faultOfStage registry stage = none) ↔
      ∀ name, .named name ∈ stages → Known registry name := by
  constructor
  · intro none_fails name mem
    have faultless := none_fails _ mem
    rw [faultOfStage] at faultless
    by_contra unknown
    rw [if_neg unknown] at faultless
    cases faultless
  · intro known stage mem
    cases stage with
    | materialize target => rfl
    | named name => rw [faultOfStage, if_pos (known name mem)]

section

variable {registry : Registry Stage} (complete : ∀ name ∈ needed, name ∈ registry.names)
variable {e : Experiment} (wellFormed : e.WellFormed) {input : Input} (mem : input ∈ e.inputs)
include complete wellFormed mem

theorem buildInput_isOk_iff :
    faultOf (buildInput registry e.tree input) = none ↔ Buildable registry e.tree input := by
  obtain ⟨edges, found⟩ := Option.isSome_iff_exists.mp (wellFormed.inputs_mem input mem)
  rw [faultOf_buildInput complete]
  -- a cycle refuses the input before any name is looked at
  by_cases cyclic : e.tree.CycleBelow input.identifier
  · have no_leaves := mt (Tree.leaves_isOk_iff found).mp (not_not_intro cyclic)
    cases result : e.tree.leaves input.identifier with
    | ok leaves => exact absurd ⟨leaves, result⟩ no_leaves
    | error cycle =>
      exact ⟨fun ok => (by cases ok), fun buildable => absurd cyclic buildable.acyclic⟩
  · obtain ⟨u, unfolds, ok⟩ := Tree.leaves_eq_ok found cyclic
    have full := unfolds.full wellFormed.edges_ne_nil
    have in_reach : ∀ edge, edge ∈ u.edges ↔ e.tree.EdgeBelow input.identifier edge := by
      intro edge
      rw [unfolds.mem_edges, ← Tree.edgeBelow_iff found]
    -- a name is known on every edge in reach if it is known in every leaf
    have on_leaves : ∀ name, .named name ∈ (u.leaves []).flatMap Leaf.stages ↔
        ∃ edge, e.tree.EdgeBelow input.identifier edge ∧ name ∈ edge.stages := by
      intro name
      rw [List.mem_flatMap, Unfolding.exists_named_mem_leaves full]
      simp only [in_reach, List.not_mem_nil, and_false, false_or]
    rw [ok]
    dsimp only
    rw [List.findSome?_eq_none_iff, faultOfStage_eq_none]
    constructor
    · intro known
      exact ⟨cyclic, fun edge below name mem => known name ((on_leaves name).mpr ⟨edge, below, mem⟩)⟩
    · intro buildable name mem
      obtain ⟨edge, below, mem⟩ := (on_leaves name).mp mem
      exact buildable.known edge below name mem

theorem buildInput_eq_error_iff (fault : Fault) :
    faultOf (buildInput registry e.tree input) = some fault ↔
      FaultOfInput registry e.tree input fault := by
  obtain ⟨edges, found⟩ := Option.isSome_iff_exists.mp (wellFormed.inputs_mem input mem)
  have leaves_iff := Tree.leaves_isOk_iff found
  rw [faultOf_buildInput complete]
  constructor
  · intro fails
    cases result : e.tree.leaves input.identifier with
    | error cycle =>
      rw [result] at fails leaves_iff
      cases fails
      exact .cycle (by_contra fun acyclic => by cases (leaves_iff.mpr acyclic).choose_spec) result
    | ok leaves =>
      have acyclic := leaves_iff.mp ⟨leaves, result⟩
      rw [result] at fails
      dsimp only at fails
      -- the first stage with a fault is one whose name is unknown
      obtain ⟨before, stage, behind, split, here, earlier⟩ := List.findSome?_eq_some_iff.mp fails
      cases stage with
      | materialize target => cases here
      | named name =>
        rw [faultOfStage] at here
        by_cases known : Known registry name
        · rw [if_pos known] at here
          cases here
        · rw [if_neg known] at here
          cases here
          exact .unknownStage acyclic result split (faultOfStage_eq_none.mp earlier) known
  · intro fails
    cases fails with
    | cycle _ result => rw [result]
    | unknownStage _ result split earlier unknown =>
      rw [result]
      refine List.findSome?_eq_some_iff.mpr ⟨_, _, _, split, ?_, faultOfStage_eq_none.mpr earlier⟩
      rw [faultOfStage, if_neg unknown]

end

/-! ## The build of an experiment -/

/-- The built-in stages build every input without a cycle and without an unknown name in reach; what
cannot be reached does not matter. Otherwise the first input that cannot be built decides the fault,
and for that input a cycle counts before every name. Either way a run that has got as far as its
build has only logged, and goes no further after a fault. -/
theorem buildAll_isOk_iff_and_first_fault {text : String} {name : Option String} {e : Experiment}
    (read : Experiment.read text name = .ok e) :
    ((∃ pipelines, buildAll .builtIn e = .ok pipelines) ↔
      ∀ input ∈ e.inputs, Buildable .builtIn e.tree input) ∧
    (∀ fault, buildAll .builtIn e = .error fault ↔
      ∃ before input behind, e.inputs = before ++ input :: behind ∧
        (∀ earlier ∈ before, Buildable .builtIn e.tree earlier) ∧
        FaultOfInput .builtIn e.tree input fault) ∧
    ∀ (setup : Run.Setup) (w : World), setup.registry = .builtIn →
      (∃ log, ((Run.build setup e).on w).2 = { w with log }) ∧
      ∀ scope w', (Run.prepare setup e).on w = (.ok scope, w') →
        (Run.build setup e).on w = ((buildAll .builtIn e).map (scope, ·), w') ∧
        ∀ fault, buildAll .builtIn e = .error fault →
          (Run.experiment setup e).on w = (.error fault, w') := by
  -- the registry has the stages that every pipeline needs, so only the leaves can fail
  have complete : ∀ name ∈ needed, name ∈ (Registry.builtIn).names := by decide
  have wellFormed := Experiment.wellFormed_of_read read
  have faults := faultOf_buildInputs .builtIn e.tree e.inputs
  refine ⟨?_, fun fault => ?_, fun setup w builtIn =>
    ⟨Run.build_onlyLogs setup e w, fun scope w' prepared => ?_⟩⟩
  · rw [buildAll, ← faultOf_eq_none, faults, List.findSome?_eq_none_iff]
    constructor
    · intro faultless input mem
      exact (buildInput_isOk_iff complete wellFormed mem).mp (faultless input mem)
    · intro buildable input mem
      exact (buildInput_isOk_iff complete wellFormed mem).mpr (buildable input mem)
  · rw [buildAll, ← faultOf_eq_some, faults, List.findSome?_eq_some_iff]
    constructor
    · rintro ⟨before, input, behind, split, fails, earlier⟩
      have mem : input ∈ e.inputs := by simp [split]
      refine ⟨before, input, behind, split, fun other first => ?_,
        (buildInput_eq_error_iff complete wellFormed mem fault).mp fails⟩
      have mem' : other ∈ e.inputs := by simp [split, first]
      exact (buildInput_isOk_iff complete wellFormed mem').mp (earlier other first)
    · rintro ⟨before, input, behind, split, earlier, fails⟩
      have mem : input ∈ e.inputs := by simp [split]
      refine ⟨before, input, behind, split,
        (buildInput_eq_error_iff complete wellFormed mem fault).mpr fails, fun other first => ?_⟩
      have mem' : other ∈ e.inputs := by simp [split, first]
      exact (buildInput_isOk_iff complete wellFormed mem').mpr (earlier other first)
  · have built := Run.build_on prepared
    rw [builtIn] at built
    refine ⟨built, fun fault failed => ?_⟩
    rw [failed] at built
    rw [Run.experiment]
    exact Action.on_bind_error built

/-- Two inputs: the first one can be built, the second one has a name that is not registered in
reach. What lies out of reach has a cycle. -/
def misspelt : String :=
  "inputs: [a, b]\ntree:\n  a: 'output:x -> m'\n  m: 'nullFilter -> o'\n  b: 'nulFilter -> o'\n  c: -> c"

theorem misspelt_fails :
    ∃ e fault, Experiment.read misspelt none = .ok e ∧ buildAll .builtIn e = .error fault ∧
      ∃ before input behind, e.inputs = before ++ input :: behind ∧
        (∀ earlier ∈ before, Buildable .builtIn e.tree earlier) ∧
        FaultOfInput .builtIn e.tree input fault := by
  have inputs : (Experiment.read misspelt none).map (·.inputs) =
      .ok [⟨"a", .file, "a"⟩, ⟨"b", .file, "b"⟩] := by decide +kernel
  have edges : (Experiment.read misspelt none).map (·.tree.edges? "b") =
      .ok (some [⟨["nulFilter"], "o", .sink⟩]) := by decide +kernel
  cases result : Experiment.read misspelt none with
  | error problem =>
    rw [result] at inputs
    cases inputs
  | ok e =>
    rw [result] at inputs edges
    simp only [Except.map, Except.ok.injEq] at inputs edges
    obtain ⟨isOk, fails, -⟩ := buildAll_isOk_iff_and_first_fault result
    have unknown : ¬ Known .builtIn "nulFilter" := by decide
    cases built : buildAll .builtIn e with
    | ok pipelines =>
      have buildable := isOk.mp ⟨pipelines, built⟩ ⟨"b", .file, "b"⟩ (by simp [inputs])
      have below : e.tree.EdgeBelow "b" ⟨["nulFilter"], "o", .sink⟩ :=
        ⟨"b", _, .refl, edges, List.mem_cons_self⟩
      exact absurd (buildable.known _ below "nulFilter" List.mem_cons_self) unknown
    | error fault => exact ⟨e, fault, rfl, built, (fails fault).mp built⟩

end Pipeline

end Branchwork
