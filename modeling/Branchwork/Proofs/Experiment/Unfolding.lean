import Branchwork.Experiment.Leaf
import Mathlib.Logic.Relation

/-!
# Unfolding a branch tree

A branch tree is a graph: an output may be the key of a node that other edges lead to as well. What
lies below a node is a tree in the proper sense only after unfolding, where a node that is reached
along several paths stands once for each of them. `Unfolding` is that tree, `Tree.Unfolds` says that
it belongs to a list of edges.

The leaves of a tree are the leaves of its unfolding, and there is an unfolding exactly when no
cycle is in reach.

Main results:

* `Tree.leavesFrom_eq_ok` — leaves found below edges are those of an unfolding.
* `Tree.exists_unfolds` — without a cycle in reach there is an unfolding, and the leaves are found
  whatever path leads to the edges, as long as nothing leads back to that path.
* `Tree.leaves_isOk_iff` — the leaves below a node are found if and only if no cycle is in reach.
-/

open Relation

namespace Branchwork.Experiment

/-! ## Reach -/

/-- An edge leads from a node of the tree to another one. -/
def Tree.Leads (tree : Tree) (node next : String) : Prop :=
  ∃ edges, tree.edges? node = some edges ∧
    ∃ edge ∈ edges, edge.output = next ∧ (tree.edges? next).isSome

/-- A cycle can be reached from a node. -/
def Tree.CycleBelow (tree : Tree) (node : String) : Prop :=
  ∃ key, ReflTransGen tree.Leads node key ∧ TransGen tree.Leads key key

theorem Tree.leads_of_mem {tree : Tree} {node : String} {edges : List Edge} {edge : Edge}
    (found : tree.edges? node = some edges) (mem : edge ∈ edges)
    (inner : (tree.edges? edge.output).isSome) : tree.Leads node edge.output :=
  ⟨edges, found, edge, mem, rfl, inner⟩

theorem Tree.CycleBelow.of_leads {tree : Tree} {node next : String} (step : tree.Leads node next)
    (cycle : tree.CycleBelow next) : tree.CycleBelow node := by
  obtain ⟨key, walk, loop⟩ := cycle
  exact ⟨key, .head step walk, loop⟩

/-- Where every walk ends there is no cycle. -/
theorem Tree.not_cycleBelow_of_acc {tree : Tree} {node : String}
    (ends : Acc (fun next node => tree.Leads node next) node) : ¬ tree.CycleBelow node := by
  induction ends with
  | intro node _ ih =>
    rintro ⟨key, walk, loop⟩
    rcases ReflTransGen.cases_head walk with rfl | ⟨next, step, walk⟩
    · -- the cycle goes through the node itself, so it can be entered one step later
      obtain ⟨next, step, back⟩ := TransGen.head'_iff.mp loop
      exact ih next step ⟨node, back, loop⟩
    · exact ih next step ⟨key, walk, loop⟩

/-! ## Unfoldings -/

/-- What a list of edges unfolds to: for each edge in order the end of a path, or the node that it
leads to with what lies below. -/
inductive Unfolding where
  | done
  | sink (edge : Edge) (rest : Unfolding)
  | node (edge : Edge) (below rest : Unfolding)
deriving DecidableEq, Repr

/-- An unfolding belongs to a list of edges of the tree. -/
inductive Tree.Unfolds (tree : Tree) : List Edge → Unfolding → Prop
  | done : Unfolds tree [] .done
  | sink {edge rest u} : tree.edges? edge.output = none → Unfolds tree rest u →
      Unfolds tree (edge :: rest) (.sink edge u)
  | node {edge edges rest below u} : tree.edges? edge.output = some edges →
      Unfolds tree edges below → Unfolds tree rest u →
      Unfolds tree (edge :: rest) (.node edge below u)

namespace Unfolding

/-- The leaves of an unfolding, behind the stages on the way to it. -/
def leaves (before : List StageRef) : Unfolding → List Leaf
  | .done => []
  | .sink edge rest => ⟨before ++ edge.steps false, edge.output⟩ :: rest.leaves before
  | .node edge below rest => below.leaves (before ++ edge.steps true) ++ rest.leaves before

/-- The edges of an unfolding. -/
def edges : Unfolding → List Edge
  | .done => []
  | .sink edge rest => edge :: rest.edges
  | .node edge below rest => edge :: (below.edges ++ rest.edges)

/-- The count of the leaves of an unfolding. -/
def size : Unfolding → Nat
  | .done => 0
  | .sink _ rest => rest.size + 1
  | .node _ below rest => below.size + rest.size

@[simp] theorem length_leaves (before : List StageRef) (u : Unfolding) :
    (u.leaves before).length = u.size := by
  induction u generalizing before with
  | done => rfl
  | sink edge rest ih => simp [leaves, size, ih]
  | node edge below rest ihBelow ihRest => simp [leaves, size, ihBelow, ihRest]

end Unfolding

/-- A list of edges has one unfolding at most. -/
theorem Tree.Unfolds.unique {tree : Tree} {edges : List Edge} {u v : Unfolding}
    (hu : tree.Unfolds edges u) (hv : tree.Unfolds edges v) : u = v := by
  induction hu generalizing v with
  | done => cases hv; rfl
  | sink found _ ih =>
    cases hv with
    | sink _ rest => rw [ih rest]
    | node found' _ _ => rw [found] at found'; cases found'
  | node found _ _ ihBelow ihRest =>
    cases hv with
    | sink found' _ => rw [found] at found'; cases found'
    | node found' below rest =>
      rw [found] at found'
      cases found'
      rw [ihBelow below, ihRest rest]

/-- Every walk from an edge that unfolds comes to an end. -/
theorem Tree.Unfolds.acc {tree : Tree} {edges : List Edge} {u : Unfolding}
    (unfolds : tree.Unfolds edges u) :
    ∀ edge ∈ edges, Acc (fun next node => tree.Leads node next) edge.output := by
  induction unfolds with
  | done => intro edge mem; cases mem
  | sink found _ ih =>
    intro edge mem
    rcases List.mem_cons.mp mem with rfl | mem
    · refine ⟨_, fun next step => ?_⟩
      obtain ⟨edges, found', -⟩ := step
      rw [found] at found'
      cases found'
    · exact ih edge mem
  | node found _ _ ihBelow ihRest =>
    intro edge mem
    rcases List.mem_cons.mp mem with rfl | mem
    · refine ⟨_, fun next step => ?_⟩
      obtain ⟨edges, found', edge', mem', rfl, -⟩ := step
      rw [found] at found'
      cases found'
      exact ihBelow edge' mem'
    · exact ihRest edge mem

/-- Below a node whose edges unfold there is no cycle. -/
theorem Tree.Unfolds.not_cycleBelow {tree : Tree} {node : String} {edges : List Edge}
    {u : Unfolding} (unfolds : tree.Unfolds edges u) (found : tree.edges? node = some edges) :
    ¬ tree.CycleBelow node := by
  refine Tree.not_cycleBelow_of_acc ⟨_, fun next step => ?_⟩
  obtain ⟨edges', found', edge, mem, rfl, -⟩ := step
  rw [found] at found'
  cases found'
  exact unfolds.acc edge mem

/-! ## Leaves

The three equations of `Tree.leavesFrom` behind the empty list of edges, one for each thing that an
edge can lead to. -/

theorem Tree.leavesFrom_nil (tree : Tree) (path : List String) (before : List StageRef) :
    tree.leavesFrom path before [] = .ok [] := by
  rw [Tree.leavesFrom]

theorem Tree.leavesFrom_sink {tree : Tree} {path : List String} {before : List StageRef}
    {edge : Edge} {rest : List Edge} (sink : tree.edges? edge.output = none) :
    tree.leavesFrom path before (edge :: rest) =
      (tree.leavesFrom path before rest).map (⟨before ++ edge.steps false, edge.output⟩ :: ·) := by
  rw [Tree.leavesFrom]
  split
  · cases tree.leavesFrom path before rest <;> rfl
  · rename_i found
    rw [sink] at found
    cases found

theorem Tree.leavesFrom_seen {tree : Tree} {path : List String} {before : List StageRef}
    {edge : Edge} {rest edges : List Edge} (found : tree.edges? edge.output = some edges)
    (seen : edge.output ∈ path) :
    tree.leavesFrom path before (edge :: rest) = .error ⟨path ++ [edge.output]⟩ := by
  rw [Tree.leavesFrom]
  split
  · rename_i sink
    rw [found] at sink
    cases sink
  · rw [dif_pos seen]

theorem Tree.leavesFrom_node {tree : Tree} {path : List String} {before : List StageRef}
    {edge : Edge} {rest edges : List Edge} (found : tree.edges? edge.output = some edges)
    (fresh : edge.output ∉ path) :
    tree.leavesFrom path before (edge :: rest) =
      (tree.leavesFrom (path ++ [edge.output]) (before ++ edge.steps true) edges).bind fun below =>
        (tree.leavesFrom path before rest).map (below ++ ·) := by
  rw [Tree.leavesFrom]
  split
  · rename_i sink
    rw [found] at sink
    cases sink
  · rename_i edges' found'
    rw [found] at found'
    cases found'
    rw [dif_neg fresh]
    cases tree.leavesFrom (path ++ [edge.output]) (before ++ edge.steps true) edges with
    | error cycle => rfl
    | ok below => cases tree.leavesFrom path before rest <;> rfl

theorem Tree.leavesFrom_eq_ok {tree : Tree} {path : List String} {before : List StageRef}
    {edges : List Edge} {leaves : List Leaf}
    (ok : tree.leavesFrom path before edges = .ok leaves) :
    ∃ u, tree.Unfolds edges u ∧ leaves = u.leaves before := by
  -- along the recursion of the search, whose cases are those of an edge
  induction path, before, edges using Tree.leavesFrom.induct tree generalizing leaves with
  | case1 path before =>
    rw [Tree.leavesFrom_nil] at ok
    cases ok
    exact ⟨.done, .done, rfl⟩
  | case2 path before edge rest sink ih =>
    rw [Tree.leavesFrom_sink sink] at ok
    cases others : tree.leavesFrom path before rest with
    | error cycle => rw [others] at ok; cases ok
    | ok others' =>
      obtain ⟨u, unfolds, rfl⟩ := ih others
      rw [others] at ok
      cases ok
      exact ⟨.sink edge u, .sink sink unfolds, rfl⟩
  | case3 path before edge rest edges found seen =>
    rw [Tree.leavesFrom_seen found seen] at ok
    cases ok
  | case4 path before edge rest edges found fresh ihBelow ihRest =>
    rw [Tree.leavesFrom_node found fresh] at ok
    cases inner : tree.leavesFrom (path ++ [edge.output]) (before ++ edge.steps true) edges with
    | error cycle => rw [inner] at ok; cases ok
    | ok below =>
      cases others : tree.leavesFrom path before rest with
      | error cycle => rw [inner, others] at ok; cases ok
      | ok others' =>
        obtain ⟨v, unfoldsBelow, rfl⟩ := ihBelow inner
        obtain ⟨u, unfoldsRest, rfl⟩ := ihRest others
        rw [inner, others] at ok
        cases ok
        exact ⟨.node edge v u, .node found unfoldsBelow unfoldsRest, rfl⟩

/-- A refused tree leads from one of the edges back to the path, or into a cycle. -/
theorem Tree.leavesFrom_eq_error {tree : Tree} {path : List String} {before : List StageRef}
    {edges : List Edge} {cycle : Cycle}
    (refused : tree.leavesFrom path before edges = .error cycle) :
    ∃ edge ∈ edges, (tree.edges? edge.output).isSome ∧
      ((∃ key ∈ path, ReflTransGen tree.Leads edge.output key) ∨ tree.CycleBelow edge.output) := by
  induction path, before, edges using Tree.leavesFrom.induct tree generalizing cycle with
  | case1 path before =>
    rw [Tree.leavesFrom_nil] at refused
    cases refused
  | case2 path before edge rest sink ih =>
    rw [Tree.leavesFrom_sink sink] at refused
    cases others : tree.leavesFrom path before rest with
    | ok _ => rw [others] at refused; cases refused
    | error cycle' =>
      obtain ⟨edge', mem, back⟩ := ih others
      exact ⟨edge', List.mem_cons_of_mem _ mem, back⟩
  | case3 path before edge rest edges found seen =>
    exact ⟨edge, List.mem_cons_self, by rw [found]; rfl, .inl ⟨edge.output, seen, .refl⟩⟩
  | case4 path before edge rest edges found fresh ihBelow ihRest =>
    rw [Tree.leavesFrom_node found fresh] at refused
    cases inner : tree.leavesFrom (path ++ [edge.output]) (before ++ edge.steps true) edges with
    | ok below =>
      cases others : tree.leavesFrom path before rest with
      | ok _ => rw [inner, others] at refused; cases refused
      | error cycle' =>
        obtain ⟨edge', mem, back⟩ := ihRest others
        exact ⟨edge', List.mem_cons_of_mem _ mem, back⟩
    -- what was refused below leads back to the path, which is longer by this edge there
    | error cycle' =>
      obtain ⟨edge', mem, isInner, back⟩ := ihBelow inner
      have step : tree.Leads edge.output edge'.output := Tree.leads_of_mem found mem isInner
      refine ⟨edge, List.mem_cons_self, by rw [found]; rfl, ?_⟩
      rcases back with ⟨key, onPath, walk⟩ | cycle
      · rcases List.mem_append.mp onPath with onPath | here
        · exact .inl ⟨key, onPath, .head step walk⟩
        · -- the walk comes back to the node that it started from
          obtain rfl := List.mem_singleton.mp here
          exact .inr ⟨edge.output, .refl, TransGen.head'_iff.mpr ⟨_, step, walk⟩⟩
      · exact .inr (cycle.of_leads step)

theorem Tree.exists_unfolds {tree : Tree} {node : String} {edges : List Edge}
    (found : tree.edges? node = some edges) (acyclic : ¬ tree.CycleBelow node) :
    ∃ u, tree.Unfolds edges u ∧ ∀ path before,
      (∀ key ∈ path, ¬ TransGen tree.Leads node key) →
        tree.leavesFrom path before edges = .ok (u.leaves before) := by
  have finds : ∀ path before, (∀ key ∈ path, ¬ TransGen tree.Leads node key) →
      ∃ leaves, tree.leavesFrom path before edges = .ok leaves := by
    intro path before apart
    cases result : tree.leavesFrom path before edges with
    | ok leaves => exact ⟨leaves, rfl⟩
    | error cycle =>
      obtain ⟨edge, mem, inner, back⟩ := Tree.leavesFrom_eq_error result
      have step : tree.Leads node edge.output := Tree.leads_of_mem found mem inner
      rcases back with ⟨key, onPath, walk⟩ | cycle
      · exact absurd (TransGen.head'_iff.mpr ⟨_, step, walk⟩) (apart key onPath)
      · exact absurd (cycle.of_leads step) acyclic
  obtain ⟨leaves, ok⟩ := finds [] [] (by simp)
  obtain ⟨u, unfolds, -⟩ := Tree.leavesFrom_eq_ok ok
  refine ⟨u, unfolds, fun path before apart => ?_⟩
  obtain ⟨leaves, ok⟩ := finds path before apart
  obtain ⟨v, unfolds', rfl⟩ := Tree.leavesFrom_eq_ok ok
  rw [ok, unfolds.unique unfolds']

/-- The path of an input, which is the input alone, is never led back to without a cycle. -/
theorem Tree.leaves_eq_ok {tree : Tree} {node : String} {edges : List Edge}
    (found : tree.edges? node = some edges) (acyclic : ¬ tree.CycleBelow node) :
    ∃ u, tree.Unfolds edges u ∧ tree.leaves node = .ok (u.leaves []) := by
  obtain ⟨u, unfolds, finds⟩ := Tree.exists_unfolds found acyclic
  refine ⟨u, unfolds, ?_⟩
  rw [Tree.leaves, found]
  refine finds [node] [] fun key onPath loop => acyclic ⟨node, .refl, ?_⟩
  rwa [List.mem_singleton.mp onPath] at loop

theorem Tree.leaves_isOk_iff {tree : Tree} {node : String} {edges : List Edge}
    (found : tree.edges? node = some edges) :
    (∃ leaves, tree.leaves node = .ok leaves) ↔ ¬ tree.CycleBelow node := by
  constructor
  · rintro ⟨leaves, ok⟩
    rw [Tree.leaves, found] at ok
    obtain ⟨u, unfolds, -⟩ := Tree.leavesFrom_eq_ok ok
    exact unfolds.not_cycleBelow found
  · intro acyclic
    obtain ⟨u, -, ok⟩ := Tree.leaves_eq_ok found acyclic
    exact ⟨_, ok⟩

end Branchwork.Experiment
