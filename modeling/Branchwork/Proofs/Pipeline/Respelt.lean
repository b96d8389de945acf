import Branchwork.Proofs.Experiment.Unfolding
import Branchwork.Proofs.Experiment.WellFormed
import Branchwork.Run

/-!
# Two spellings of writing on the way

That the output of an edge is written on the way can be said in two ways: by the policy of the edge, or
by a last stage whose name starts with `output:`. The first one becomes a stage of its own when the tree
is flattened, the second one travels as the name of a stage until stages are looked up.

The two are one thing in a pipeline. A tree may be respelt at any of its edges, and what is built from it
stays the same, step by step.

Main results:

* `buildAll_respelt` — a respelt tree is refused for the same fault, or its pipelines are alike.
* `Run.experiment_respelt` — the whole run stays the same.
-/

namespace Branchwork

namespace Experiment

/-- An edge as it was or, if its output is written on the way, with a last stage that says so. -/
inductive Edge.Respelt : Edge → Edge → Prop
  | kept (edge) : Respelt edge edge
  | staged (stages output) : Respelt ⟨stages, output, .materialize⟩
      ⟨stages ++ [materializeStart ++ output], output, .passthrough⟩

/-- A tree with some of its edges respelt. -/
def Tree.Respelt (tree tree' : Tree) : Prop :=
  List.Forall₂ (fun node node' => node'.1 = node.1 ∧ List.Forall₂ Edge.Respelt node.2 node'.2)
    tree tree'

/-- Two leaves with one output, whose stages have the same texts. -/
def Leaf.Alike (leaf leaf' : Leaf) : Prop :=
  leaf'.stages.map StageRef.text = leaf.stages.map StageRef.text ∧ leaf'.output = leaf.output

/-! ## Flattening -/

theorem Edge.Respelt.output_eq {edge edge' : Edge} (respelt : edge.Respelt edge') :
    edge'.output = edge.output := by
  cases respelt <;> rfl

theorem Edge.Respelt.eq_of_sink {edge edge' : Edge} (respelt : edge.Respelt edge')
    (sink : edge.policy = .sink) : edge' = edge := by
  cases respelt with
  | kept => rfl
  | staged => cases sink

/-- On the way to a node, both spellings add stages with the same texts. -/
theorem Edge.Respelt.steps_text {edge edge' : Edge} (respelt : edge.Respelt edge') :
    (edge'.steps true).map StageRef.text = (edge.steps true).map StageRef.text := by
  cases respelt with
  | kept => rfl
  | staged stages output => simp [Edge.steps, StageRef.text, Function.comp_def]

theorem Tree.Respelt.edges? {tree tree' : Tree} (respelt : tree.Respelt tree') (key : String) :
    Option.Rel (List.Forall₂ Edge.Respelt) (tree.edges? key) (tree'.edges? key) := by
  simp only [Tree.edges?]
  induction respelt with
  | nil => exact .none
  | cons first _ ih =>
    obtain ⟨sameKey, edges⟩ := first
    rw [lookup_cons_if, lookup_cons_if, sameKey]
    split
    · exact .some edges
    · exact ih

variable {tree tree' : Tree}

theorem Tree.Respelt.edges?_none (respelt : tree.Respelt tree') {key : String}
    (outside : tree.edges? key = none) : tree'.edges? key = none := by
  have found := respelt.edges? key
  rw [outside] at found
  cases node' : tree'.edges? key with
  | none => rfl
  | some _ => rw [node'] at found; cases found

theorem Tree.Respelt.edges?_some (respelt : tree.Respelt tree') {key : String} {edges : List Edge}
    (node : tree.edges? key = some edges) :
    ∃ edges', tree'.edges? key = some edges' ∧ List.Forall₂ Edge.Respelt edges edges' := by
  have found := respelt.edges? key
  rw [node] at found
  cases node' : tree'.edges? key with
  | none => rw [node'] at found; cases found
  | some edges' =>
    rw [node'] at found
    cases found with
    | some each => exact ⟨edges', rfl, each⟩

/-- The leaves below respelt edges, behind stages with the same texts: the same cycle, or leaves
alike. -/
theorem Tree.Respelt.leavesFrom (respelt : tree.Respelt tree')
    (ends : ∀ key edges, tree.edges? key = some edges → ∀ edge ∈ edges,
      edge.policy = .sink ↔ tree.edges? edge.output = none)
    (path : List String) (before before' : List StageRef) (edges edges' : List Edge)
    (endsHere : ∀ edge ∈ edges, edge.policy = .sink ↔ tree.edges? edge.output = none)
    (same : before'.map StageRef.text = before.map StageRef.text)
    (each : List.Forall₂ Edge.Respelt edges edges') :
    SideBySide (List.Forall₂ Leaf.Alike) (tree.leavesFrom path before edges)
      (tree'.leavesFrom path before' edges') := by
  -- along the search in the first tree; the other one takes the same turns
  induction path, before, edges using Tree.leavesFrom.induct tree generalizing before' edges' with
  | case1 path before =>
    cases each
    rw [Tree.leavesFrom_nil, Tree.leavesFrom_nil]
    exact .ok .nil
  | case2 path before edge rest sink ih =>
    cases each with
    | cons first others =>
      -- only edges that lead to a node are respelt
      have kept := first.eq_of_sink ((endsHere edge List.mem_cons_self).mpr sink)
      subst kept
      rw [Tree.leavesFrom_sink sink, Tree.leavesFrom_sink (respelt.edges?_none sink)]
      have rest := ih before' _ (fun other mem => endsHere other (List.mem_cons_of_mem _ mem)) same
        others
      refine rest.map fun leaves leaves' alike => .cons ⟨?_, rfl⟩ alike
      rw [List.map_append, List.map_append, same]
  | case3 path before edge rest edges found seen =>
    cases each with
    | cons first others =>
      obtain ⟨edges', found', -⟩ := respelt.edges?_some found
      rw [← first.output_eq] at found'
      rw [Tree.leavesFrom_seen found seen, Tree.leavesFrom_seen found' (first.output_eq ▸ seen),
        first.output_eq]
      exact .error _
  | case4 path before edge rest edges found fresh ihBelow ihRest =>
    cases each with
    | cons first others =>
      obtain ⟨edges', found', below⟩ := respelt.edges?_some found
      rw [← first.output_eq] at found'
      rw [Tree.leavesFrom_node found fresh, Tree.leavesFrom_node found' (first.output_eq ▸ fresh),
        first.output_eq]
      refine (ihBelow _ edges' (ends _ _ found) ?_ below).bind fun below below' alike => ?_
      · rw [List.map_append, List.map_append, same, first.steps_text]
      · have rest := ihRest before' _ (fun other mem => endsHere other (List.mem_cons_of_mem _ mem))
          same others
        exact rest.map fun leaves leaves' alike' => List.rel_append alike alike'

theorem Tree.Respelt.leaves (respelt : tree.Respelt tree')
    (ends : ∀ key edges, tree.edges? key = some edges → ∀ edge ∈ edges,
      edge.policy = .sink ↔ tree.edges? edge.output = none) (identifier : String) :
    SideBySide (List.Forall₂ Leaf.Alike) (tree.leaves identifier) (tree'.leaves identifier) := by
  rw [Tree.leaves, Tree.leaves]
  cases node : tree.edges? identifier with
  | none =>
    rw [respelt.edges?_none node]
    exact respelt.leavesFrom ends _ _ _ _ _ (by simp) rfl .nil
  | some edges =>
    obtain ⟨edges', node', each⟩ := respelt.edges?_some node
    rw [node']
    exact respelt.leavesFrom ends _ _ _ _ _ (ends _ _ node) rfl each

end Experiment

open Experiment

namespace Pipeline

/-! ## Building -/

/-- Two pipelines that cannot be told apart: by their labels, by the names of their steps, and by what
they come to when they are run, with the value of every step. -/
structure Interchangeable (p p' : Pipeline) : Prop where
  label : p'.label = p.label
  names : p'.steps.map Step.name = p.steps.map Step.name
  run : ∀ scope w, (p'.run scope).run w = (p.run scope).run w

variable {registry : Registry Stage} {input : Input}

@[simp] theorem materializeTarget?_start (target : String) :
    materializeTarget? (materializeStart ++ target) = some target := by
  rw [materializeTarget?, String.toList_append, if_pos (by simp), ← String.length_toList,
    List.drop_left, String.ofList_toList]

/-- A stage is looked up by its text. -/
theorem resolve_text (ref : StageRef) :
    resolve registry input ref = resolve registry input (.named ref.text) := by
  cases ref with
  | named name => rfl
  | materialize target => simp [resolve, StageRef.text]

theorem mapM_resolve_text (refs : List StageRef) :
    refs.mapM (resolve registry input) =
      (refs.map StageRef.text).mapM fun name => resolve registry input (.named name) := by
  rw [List.mapM_map]
  exact congrArg (List.mapM · refs) (funext resolve_text)

/-- Leaves alike give pipelines alike. -/
theorem build_alike {leaf other : Leaf} (alike : leaf.Alike other) :
    SideBySide Interchangeable (build registry input leaf) (build registry input other) := by
  obtain ⟨texts, output⟩ := alike
  have stages : other.stages.mapM (resolve registry input) =
      leaf.stages.mapM (resolve registry input) := by
    rw [mapM_resolve_text, mapM_resolve_text, texts]
  rw [build, build, stages, output]
  cases inputSteps registry input with
  | error fault => exact .error fault
  | ok source =>
    cases leaf.stages.mapM (resolve registry input) with
    | error fault => exact .error fault
    | ok steps =>
      cases sinkSteps registry input leaf.output with
      | error fault => exact .error fault
      | ok sink =>
        have label : s!"{input.identifier} -> {other.output}" =
            s!"{input.identifier} -> {leaf.output}" := by rw [output]
        refine .ok ⟨label, rfl, fun scope w => ?_⟩
        simp only [Pipeline.run, Pipeline.label, label]

theorem buildInputs_alike {tree tree' : Tree}
    (leaves : ∀ identifier,
      SideBySide (List.Forall₂ Leaf.Alike) (tree.leaves identifier) (tree'.leaves identifier))
    (inputs : List Input) :
    SideBySide (List.Forall₂ Interchangeable) (buildInputs registry tree inputs)
      (buildInputs registry tree' inputs) := by
  induction inputs with
  | nil => exact .ok .nil
  | cons input rest ih =>
    have first : SideBySide (List.Forall₂ Interchangeable) (buildInput registry tree input)
        (buildInput registry tree' input) :=
      (leaves input.identifier).mapError.bind fun _ _ each =>
        sideBySide_mapM each fun _ _ => build_alike
    exact first.bind fun _ _ first => ih.bind fun _ _ more => .ok (List.rel_append first more)

/-- An experiment whose tree is respelt at any of its edges fails to be built exactly when it did
before, with the same fault, and otherwise its pipelines are what they were, one by one. -/
theorem buildAll_respelt {text : String} {name : Option String} {e : Experiment}
    (described : Experiment.read text name = .ok e) {tree : Tree} (respelt : e.tree.Respelt tree)
    (registry : Registry Stage) :
    SideBySide (List.Forall₂ Interchangeable) (buildAll registry e) (buildAll registry { e with tree }) :=
  buildInputs_alike (respelt.leaves (wellFormed_of_read described).policy_eq_sink) e.inputs

/-- Two ways lead to one node, the longer one by way of another node. -/
def fannedIn : String :=
  "inputs: ['!a.txt']\ntree:\n  '!a.txt': [nullFilter -> m, -> n]\n  n: toJSONString -> m\n" ++
    "  m: [-> out, -> console]"

/-- The tree of `fannedIn`, with the two edges to one node respelt. -/
def fannedInRespelt : Tree :=
  [("!a.txt", [⟨["nullFilter", "output:m"], "m", .passthrough⟩, ⟨[], "n", .materialize⟩]),
    ("n", [⟨["toJSONString", "output:m"], "m", .passthrough⟩]),
    ("m", [⟨[], "out", .sink⟩, ⟨[], "console", .sink⟩])]

theorem fannedIn_respelt :
    ∃ e, Experiment.read fannedIn none = .ok e ∧ e.tree.Respelt fannedInRespelt ∧
      SideBySide (List.Forall₂ Interchangeable) (buildAll .builtIn e)
        (buildAll .builtIn { e with tree := fannedInRespelt }) := by
  have described : (Experiment.read fannedIn none).map (·.tree) =
      .ok [("!a.txt", [⟨["nullFilter"], "m", .materialize⟩, ⟨[], "n", .materialize⟩]),
        ("n", [⟨["toJSONString"], "m", .materialize⟩]),
        ("m", [⟨[], "out", .sink⟩, ⟨[], "console", .sink⟩])] := by decide +kernel
  obtain ⟨e, result, tree⟩ := map_eq_ok.mp described
  have respelt : e.tree.Respelt fannedInRespelt := by
    rw [tree]
    exact .cons ⟨rfl, .cons (.staged _ _) (.cons (.kept _) .nil)⟩
      (.cons ⟨rfl, .cons (.staged _ _) .nil⟩
        (.cons ⟨rfl, .cons (.kept _) (.cons (.kept _) .nil)⟩ .nil))
  exact ⟨e, result, respelt, buildAll_respelt result respelt .builtIn⟩

end Pipeline

namespace Run

variable {setup : Setup} {scope : Stage.Scope}

/-- Pipelines alike are run alike, one behind the other. -/
theorem runPipelines_alike {pipelines pipelines' : List Pipeline}
    (each : List.Forall₂ Pipeline.Interchangeable pipelines pipelines') (count index : Nat) :
    runPipelines setup scope count index pipelines' =
      runPipelines setup scope count index pipelines := by
  induction each generalizing index with
  | nil => rfl
  | cons first _ ih =>
    have run : Pipeline.run scope _ = Pipeline.run scope _ := funext (first.run scope)
    rw [runPipelines, runPipelines, ih, runPipeline, runPipeline, run, first.label]

/-- A respelt tree changes nothing about the run of an experiment. -/
theorem experiment_respelt {text : String} {name : Option String} {e : Experiment}
    (described : Experiment.read text name = .ok e) {tree : Tree} (respelt : e.tree.Respelt tree) :
    Run.experiment setup { e with tree } = Run.experiment setup e := by
  have prepared : prepare setup { e with tree } = prepare setup e := rfl
  simp only [Run.experiment, Run.build, bind_assoc, prepared]
  refine congrArg (prepare setup e >>= ·) (funext fun scope => ?_)
  have built := Pipeline.buildAll_respelt described respelt setup.registry
  revert built
  generalize Pipeline.buildAll setup.registry e = before
  generalize Pipeline.buildAll setup.registry { e with tree } = after
  rintro (each | fault)
  · simp only [Action.ofExcept, pure_bind, each.length_eq, runPipelines_alike each]
  · rfl

end Run

end Branchwork
