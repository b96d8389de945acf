import Branchwork.Proofs.Experiment.Unfolding

/-!
# Edges in reach

The edges that can be reached from a node are those of its unfolding. If every node has an edge,
each of them lies on the way to a leaf, so its stages are stages of a leaf.

Main results:

* `Tree.Unfolds.mem_edges` — the edges of an unfolding are those in reach.
* `Unfolding.exists_named_mem_leaves` — a full unfolding loses no stage on the way to its leaves.
-/

open Relation

namespace Branchwork.Experiment

/-- An edge can be reached from a node. -/
def Tree.EdgeBelow (tree : Tree) (node : String) (edge : Edge) : Prop :=
  ∃ key edges, ReflTransGen tree.Leads node key ∧ tree.edges? key = some edges ∧ edge ∈ edges

/-- An edge in reach of a node leaves the node itself, or is in reach of a node that one of its
edges leads to. -/
theorem Tree.edgeBelow_iff {tree : Tree} {node : String} {edge : Edge} {edges : List Edge}
    (found : tree.edges? node = some edges) :
    tree.EdgeBelow node edge ↔
      edge ∈ edges ∨ ∃ first ∈ edges, tree.EdgeBelow first.output edge := by
  constructor
  · rintro ⟨key, edges', walk, found', mem⟩
    rcases ReflTransGen.cases_head walk with rfl | ⟨next, step, walk⟩
    · rw [found] at found'
      cases found'
      exact .inl mem
    · obtain ⟨edges'', found'', first, memFirst, rfl, -⟩ := step
      rw [found] at found''
      cases found''
      exact .inr ⟨first, memFirst, key, edges', walk, found', mem⟩
  · rintro (mem | ⟨first, memFirst, key, edges', walk, found', mem⟩)
    · exact ⟨node, edges, .refl, found, mem⟩
    · refine ⟨key, edges', .head ?_ walk, found', mem⟩
      -- what lies at the end of the walk shows that the first edge leads to a node
      refine Tree.leads_of_mem found memFirst ?_
      rcases ReflTransGen.cases_head walk with same | ⟨next, step, -⟩
      · rw [same, found']
        rfl
      · obtain ⟨edges'', found'', -⟩ := step
        rw [found'']
        rfl

theorem Tree.not_edgeBelow_sink {tree : Tree} {node : String} {edge : Edge}
    (sink : tree.edges? node = none) : ¬ tree.EdgeBelow node edge := by
  rintro ⟨key, edges, walk, found, -⟩
  rcases ReflTransGen.cases_head walk with rfl | ⟨next, step, -⟩
  · rw [sink] at found
    cases found
  · obtain ⟨edges', found', -⟩ := step
    rw [sink] at found'
    cases found'

/-- The edges of an unfolding are those in reach. -/
theorem Tree.Unfolds.mem_edges {tree : Tree} {edges : List Edge} {u : Unfolding}
    (unfolds : tree.Unfolds edges u) (edge : Edge) :
    edge ∈ u.edges ↔ edge ∈ edges ∨ ∃ first ∈ edges, tree.EdgeBelow first.output edge := by
  induction unfolds with
  | done => simp [Unfolding.edges]
  | sink found _ ih => simp [Unfolding.edges, ih, Tree.not_edgeBelow_sink found, or_assoc]
  | node found _ _ ihBelow ihRest =>
    rw [Unfolding.edges, List.mem_cons, List.mem_append, ihBelow, ihRest,
      ← Tree.edgeBelow_iff found]
    simp only [List.mem_cons, exists_eq_or_imp]
    constructor
    · rintro (here | below | rest | further)
      · exact .inl (.inl here)
      · exact .inr (.inl below)
      · exact .inl (.inr rest)
      · exact .inr (.inr further)
    · rintro ((here | rest) | below | further)
      · exact .inl here
      · exact .inr (.inr (.inl rest))
      · exact .inr (.inl below)
      · exact .inr (.inr (.inr further))

/-! ## Stages on the way to a leaf -/

/-- Every node of an unfolding has an edge. -/
def Unfolding.Full : Unfolding → Prop
  | .done => True
  | .sink _ rest => rest.Full
  | .node _ below rest => below ≠ .done ∧ below.Full ∧ rest.Full

theorem Tree.Unfolds.full {tree : Tree} {edges : List Edge} {u : Unfolding}
    (nonempty : ∀ key edges, tree.edges? key = some edges → edges ≠ [])
    (unfolds : tree.Unfolds edges u) : u.Full := by
  induction unfolds with
  | done => trivial
  | sink _ _ ih => exact ih
  | node found below _ ihBelow ihRest =>
    refine ⟨?_, ihBelow, ihRest⟩
    rintro rfl
    cases below
    exact nonempty _ _ found rfl

/-- A full unfolding loses no stage: each one that an edge applies is on the way to a leaf. -/
theorem Unfolding.exists_named_mem_leaves {u : Unfolding} (full : u.Full) (before : List StageRef)
    (stage : String) :
    (∃ leaf ∈ u.leaves before, .named stage ∈ leaf.stages) ↔
      (u ≠ .done ∧ .named stage ∈ before) ∨ ∃ edge ∈ u.edges, stage ∈ edge.stages := by
  have steps {edge : Edge} {isInternal : Bool} :
      .named stage ∈ edge.steps isInternal ↔ stage ∈ edge.stages := by
    unfold Edge.steps
    split <;> simp
  induction u generalizing before with
  | done => simp [leaves, edges]
  | sink edge rest ih =>
    have ih := ih full before
    simp only [leaves, edges, List.mem_cons, exists_eq_or_imp, List.mem_append, steps, ih]
    simp only [ne_eq, reduceCtorEq, not_false_eq_true, true_and]
    constructor
    · rintro ((onWay | here) | ⟨-, onWay⟩ | rest)
      · exact .inl onWay
      · exact .inr (.inl here)
      · exact .inl onWay
      · exact .inr (.inr rest)
    · rintro (onWay | here | rest)
      · exact .inl (.inl onWay)
      · exact .inl (.inr here)
      · exact .inr (.inr rest)
  | node edge below rest ihBelow ihRest =>
    obtain ⟨some_below, fullBelow, fullRest⟩ := full
    have ihBelow := ihBelow fullBelow (before ++ edge.steps true)
    have ihRest := ihRest fullRest before
    have split_edges : (∃ e ∈ (Unfolding.node edge below rest).edges, stage ∈ e.stages) ↔
        stage ∈ edge.stages ∨ (∃ e ∈ below.edges, stage ∈ e.stages) ∨
          ∃ e ∈ rest.edges, stage ∈ e.stages := by
      simp only [edges, List.mem_cons, List.mem_append, or_and_right, exists_or,
        exists_eq_left]
    simp only [leaves, List.mem_append, or_and_right, exists_or, ihBelow, ihRest, split_edges,
      steps, ne_eq, some_below, reduceCtorEq, not_false_eq_true, true_and]
    constructor
    · rintro ((onWay | below) | ⟨-, onWay⟩ | rest)
      · exact onWay.imp_right .inl
      · exact .inr (.inr (.inl below))
      · exact .inl onWay
      · exact .inr (.inr (.inr rest))
    · rintro (onWay | here | below | rest)
      · exact .inl (.inl (.inl onWay))
      · exact .inl (.inl (.inr here))
      · exact .inl (.inr below)
      · exact .inr (.inr rest)

end Branchwork.Experiment
