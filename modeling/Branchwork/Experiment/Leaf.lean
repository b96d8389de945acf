import Branchwork.Experiment.Tree

/-!
# Leaves

A tree is flattened into leaves: one for each path from a node to a sink, depth first, in the order
of the edges. A leaf lists the stages along its path; the output of an edge that is written on the
way is kept as a stage of its own. A path that comes back to an identifier on it is a cycle, and
the tree is refused.

The recursion ends because every step down puts one more node of the tree on the path.
-/

namespace Branchwork.Experiment

/-- A stage of a leaf: a stage by its name, or the writing of an intermediate output. -/
inductive StageRef where
  | named (name : String)
  | materialize (target : String)
deriving DecidableEq, Repr

/-- The beginning of the name that stands for the writing of an intermediate output. -/
def materializeStart : String := "output:"

/-- The text of a stage. -/
def StageRef.text : StageRef → String
  | .named name => name
  | .materialize target => materializeStart ++ target

/-- One path from an input to a sink. -/
structure Leaf where
  stages : List StageRef
  output : String
deriving DecidableEq, Repr

/-- The identifiers of a path that comes back to its last one. -/
structure Cycle where
  path : List String
deriving DecidableEq, Repr

/-- A cycle in words. -/
def Cycle.message (c : Cycle) : String :=
  "Cycle detected in experiment tree: " ++ " -> ".intercalate c.path

/-- The stages that an edge adds to a path. -/
def Edge.steps (e : Edge) (isInternal : Bool) : List StageRef :=
  e.stages.map .named ++
    if isInternal && e.policy ≠ .passthrough then [.materialize e.output] else []

/-- The number of nodes of a tree that are not on a path. -/
def Tree.unvisited (tree : Tree) (path : List String) : Nat :=
  tree.countP fun node => node.1 ∉ path

theorem Tree.unvisited_le (tree : Tree) (path : List String) (key : String) :
    tree.unvisited (path ++ [key]) ≤ tree.unvisited path := by
  refine List.countP_mono_left fun node _ h => ?_
  simp only [List.mem_append, decide_eq_true_eq] at h ⊢
  exact fun hp => h (.inl hp)

theorem Tree.unvisited_lt {tree : Tree} {path : List String} {key : String} {edges : List Edge}
    (found : tree.edges? key = some edges) (fresh : key ∉ path) :
    tree.unvisited (path ++ [key]) < tree.unvisited path := by
  induction tree with
  | nil => simp [Tree.edges?] at found
  | cons node rest ih =>
    obtain ⟨k, es⟩ := node
    have le := Tree.unvisited_le rest path key
    by_cases hk : k = key
    · subst hk
      simp only [Tree.unvisited, List.countP_cons, List.mem_append, List.mem_singleton] at le ⊢
      simp only [fresh, or_true, not_true_eq_false, decide_false, not_false_eq_true, decide_true,
        if_true, Bool.false_eq_true, if_false]
      omega
    · have lt := ih (by simpa [Tree.edges?, List.lookup_cons, beq_false_of_ne (Ne.symm hk)]
        using found)
      simp only [Tree.unvisited, List.countP_cons] at lt ⊢
      simp only [List.mem_append, List.mem_singleton, hk, or_false] at lt ⊢
      omega

/-- The leaves below a list of edges, with the path that leads to them and the stages on it. -/
def Tree.leavesFrom (tree : Tree) (path : List String) (before : List StageRef) :
    List Edge → Except Cycle (List Leaf)
  | [] => .ok []
  | edge :: rest =>
    match _found : tree.edges? edge.output with
    | none => do
      let others ← tree.leavesFrom path before rest
      return ⟨before ++ edge.steps false, edge.output⟩ :: others
    | some edges =>
      if _seen : edge.output ∈ path then .error ⟨path ++ [edge.output]⟩
      else do
        let below ← tree.leavesFrom (path ++ [edge.output]) (before ++ edge.steps true) edges
        let others ← tree.leavesFrom path before rest
        return below ++ others
termination_by edges => (tree.unvisited path, edges.length)
decreasing_by
  · exact Prod.Lex.right _ (Nat.lt_succ_self _)
  · exact Prod.Lex.left _ _ (Tree.unvisited_lt _found _seen)
  · exact Prod.Lex.right _ (Nat.lt_succ_self _)

/-- The leaves below an input. -/
def Tree.leaves (tree : Tree) (identifier : String) : Except Cycle (List Leaf) :=
  tree.leavesFrom [identifier] [] ((tree.edges? identifier).getD [])

end Branchwork.Experiment
