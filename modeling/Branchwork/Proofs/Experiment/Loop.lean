import Branchwork.Proofs.Experiment.Unfolding
import Branchwork.Proofs.Experiment.WellFormed
import Mathlib.Data.List.Lex
import Mathlib.Data.List.Perm.Subperm

/-!
# Loops

A tree that leads back to a node on the way is refused, and the way is told. `Tree.Trail` is a way
along the edges, given by the places of its edges, each counted among the edges that leave its node;
a loop is a trail that comes back, for the first time, to a node that it has passed. Loops in the
order of their places are loops in the order in which the tree is walked, depth first.

The walk remembers only the nodes on its path, so it comes by a node once for each path to it.
`Tree.Returns` follows it down from any path: the invariant is that the nodes on a path differ, and
every step down adds one. A walk that is refused has met the first of all loops, and one that is not
refused has met none.

Main results:

* `Tree.not_returns_of_leavesFrom_eq_ok`, `Tree.firstReturn_of_leavesFrom_eq_error` — what a walk
  below a path meets.
* `Tree.returns_iff_loop` — what comes back to the path of a node is a loop.
* `refused_iff_firstLoop` — a refused input has a cycle in reach, and what is told is its first loop.
-/

open Relation

namespace Branchwork.Experiment

/-- A trail from a node along edges that lead to nodes: the place of each edge, and the nodes that
are passed behind the first one. -/
inductive Tree.Trail (tree : Tree) : String → List Nat → List String → Prop
  | stay {node} : Trail tree node [] []
  | step {node edges edge place places keys} : tree.edges? node = some edges →
      edges[place]? = some edge → (tree.edges? edge.output).isSome →
      Trail tree edge.output places keys → Trail tree node (place :: places) (edge.output :: keys)

/-- A loop from a node: a trail whose nodes all differ, but for the last one, which has been passed
before. -/
structure Tree.Loop (tree : Tree) (node : String) (places : List Nat) (path : List String) : Prop where
  starts : path.head? = some node
  trail : tree.Trail node places path.tail
  closes : ∃ front last, path = front ++ [last] ∧ front.Nodup ∧ last ∈ front

/-- A loop that comes before every other one in the order of the places. -/
def Tree.FirstLoop (tree : Tree) (node : String) (path : List String) : Prop :=
  ∃ places, tree.Loop node places path ∧
    ∀ places' path', tree.Loop node places' path' → places ≤ places'

theorem Tree.Trail.unique {tree : Tree} {node : String} {places : List Nat} {keys keys' : List String}
    (trail : tree.Trail node places keys) (trail' : tree.Trail node places keys') : keys = keys' := by
  induction trail generalizing keys' with
  | stay => cases trail'; rfl
  | step found here _ _ ih =>
    cases trail' with
    | step found' here' _ trail' =>
      rw [found] at found'
      cases found'
      rw [here] at here'
      cases here'
      rw [ih trail']

theorem Tree.Loop.unique {tree : Tree} {node : String} {places : List Nat} {path path' : List String}
    (loop : tree.Loop node places path) (loop' : tree.Loop node places path') : path = path' := by
  have tails := loop.trail.unique loop'.trail
  rw [List.eq_cons_of_mem_head? loop.starts, List.eq_cons_of_mem_head? loop'.starts, tails]

theorem Tree.FirstLoop.unique {tree : Tree} {node : String} {path path' : List String}
    (first : tree.FirstLoop node path) (first' : tree.FirstLoop node path') : path = path' := by
  obtain ⟨places, loop, before⟩ := first
  obtain ⟨places', loop', before'⟩ := first'
  obtain rfl : places = places' :=
    le_antisymm (before _ _ loop') (before' _ _ loop)
  exact loop.unique loop'

/-! ## Coming back to a path -/

/-- One of some edges comes back to a path, or leads on to a node from which the path, with that node
on it, is come back to. -/
inductive Tree.Returns (tree : Tree) : List String → List Edge → List Nat → List String → Prop
  | back {path edges edge place} : edges[place]? = some edge →
      (tree.edges? edge.output).isSome → edge.output ∈ path →
      Returns tree path edges [place] [edge.output]
  | on {path edges edge place below places keys} : edges[place]? = some edge →
      tree.edges? edge.output = some below → edge.output ∉ path →
      Returns tree (path ++ [edge.output]) below places keys →
      Returns tree path edges (place :: places) (edge.output :: keys)

section

variable {tree : Tree} {path : List String} {edge : Edge} {rest : List Edge} {places : List Nat}
  {keys : List String}

theorem Tree.not_returns_nil : ¬ tree.Returns path [] places keys := by
  intro returns
  cases returns with
  | back here _ _ => simp at here
  | on here _ _ _ => simp at here

theorem Tree.Returns.places_eq_cons {edges : List Edge}
    (returns : tree.Returns path edges places keys) : ∃ place more, places = place :: more := by
  cases returns with
  | back _ _ _ => exact ⟨_, _, rfl⟩
  | on _ _ _ _ => exact ⟨_, _, rfl⟩

/-- What does not come back by the first edge comes back by one of the others. -/
theorem Tree.returns_succ {place : Nat} :
    tree.Returns path (edge :: rest) ((place + 1) :: places) keys ↔
      tree.Returns path rest (place :: places) keys := by
  constructor
  · intro returns
    cases returns with
    | back here inner seen => exact .back (by simpa using here) inner seen
    | on here found fresh below => exact .on (by simpa using here) found fresh below
  · intro returns
    cases returns with
    | back here inner seen => exact .back (by simpa using here) inner seen
    | on here found fresh below => exact .on (by simpa using here) found fresh below

theorem Tree.returns_cons : tree.Returns path (edge :: rest) places keys ↔
    (∃ more, places = 0 :: more ∧ tree.Returns path (edge :: rest) (0 :: more) keys) ∨
      ∃ place more, places = (place + 1) :: more ∧ tree.Returns path rest (place :: more) keys := by
  constructor
  · intro returns
    obtain ⟨place, more, rfl⟩ := returns.places_eq_cons
    cases place with
    | zero => exact .inl ⟨more, rfl, returns⟩
    | succ place => exact .inr ⟨place, more, rfl, Tree.returns_succ.mp returns⟩
  · rintro (⟨more, rfl, returns⟩ | ⟨place, more, rfl, returns⟩)
    · exact returns
    · exact Tree.returns_succ.mpr returns

theorem Tree.not_returns_sink (sink : tree.edges? edge.output = none) :
    ¬ tree.Returns path (edge :: rest) (0 :: places) keys := by
  intro returns
  cases returns with
  | back here inner _ =>
    cases here
    rw [sink] at inner
    cases inner
  | on here found _ _ =>
    cases here
    rw [sink] at found
    cases found

theorem Tree.returns_node {below : List Edge} (found : tree.edges? edge.output = some below)
    (fresh : edge.output ∉ path) : tree.Returns path (edge :: rest) (0 :: places) keys ↔
      ∃ more, keys = edge.output :: more ∧
        tree.Returns (path ++ [edge.output]) below places more := by
  constructor
  · intro returns
    cases returns with
    | back here _ seen =>
      cases here
      exact absurd seen fresh
    | on here found' _ below' =>
      cases here
      rw [found] at found'
      cases found'
      exact ⟨_, rfl, below'⟩
  · rintro ⟨more, rfl, returns⟩
    exact .on rfl found fresh returns

/-! ## What a walk meets -/

/-- A walk that is not refused comes back nowhere. -/
theorem Tree.not_returns_of_leavesFrom_eq_ok {before : List StageRef} {edges : List Edge}
    {leaves : List Leaf} (ok : tree.leavesFrom path before edges = .ok leaves) (places : List Nat)
    (keys : List String) : ¬ tree.Returns path edges places keys := by
  induction path, before, edges using Tree.leavesFrom.induct tree generalizing leaves places keys with
  | case1 path before => exact Tree.not_returns_nil
  | case2 path before edge rest sink ih =>
    rw [Tree.leavesFrom_sink sink] at ok
    obtain ⟨others, result, -⟩ := map_eq_ok.mp ok
    intro returns
    rcases Tree.returns_cons.mp returns with ⟨more, rfl, here⟩ | ⟨place, more, rfl, later⟩
    · exact Tree.not_returns_sink sink here
    · exact ih result _ _ later
  | case3 path before edge rest edges found seen =>
    rw [Tree.leavesFrom_seen found seen] at ok
    cases ok
  | case4 path before edge rest edges found fresh ihBelow ihRest =>
    rw [Tree.leavesFrom_node found fresh] at ok
    obtain ⟨below, inner, ok⟩ := bind_eq_ok.mp ok
    obtain ⟨others, result, -⟩ := map_eq_ok.mp ok
    intro returns
    rcases Tree.returns_cons.mp returns with ⟨more, rfl, here⟩ | ⟨place, more, rfl, later⟩
    · obtain ⟨keys', -, inside⟩ := (Tree.returns_node found fresh).mp here
      exact ihBelow inner _ _ inside
    · exact ihRest result _ _ later

/-- A way to come back that comes before every other one in the order of the places. -/
def Tree.FirstReturn (tree : Tree) (path : List String) (edges : List Edge) (keys : List String) :
    Prop :=
  ∃ places, tree.Returns path edges places keys ∧
    ∀ places' keys', tree.Returns path edges places' keys' → places ≤ places'

/-- If the first edge does not come back, the first way of the others is the first one of all. -/
theorem Tree.FirstReturn.later (first : tree.FirstReturn path rest keys)
    (never : ∀ places keys, ¬ tree.Returns path (edge :: rest) (0 :: places) keys) :
    tree.FirstReturn path (edge :: rest) keys := by
  obtain ⟨places, returns, before⟩ := first
  obtain ⟨place, more, rfl⟩ := returns.places_eq_cons
  refine ⟨(place + 1) :: more, Tree.returns_succ.mpr returns, fun places' keys' returns' => ?_⟩
  rcases Tree.returns_cons.mp returns' with ⟨more', rfl, here⟩ | ⟨place', more', rfl, later⟩
  · exact absurd here (never _ _)
  · rcases (before _ _ later).lt_or_eq with lt | same
    · -- among the other edges both ways begin one place earlier
      rcases List.cons_lt_cons_iff.mp lt with first | ⟨rfl, below⟩
      · exact le_of_lt (List.Lex.rel (Nat.succ_lt_succ first))
      · exact le_of_lt (List.Lex.cons below)
    · obtain ⟨rfl, rfl⟩ := List.cons.inj same
      exact le_refl _

theorem Tree.FirstReturn.seen {below : List Edge} (found : tree.edges? edge.output = some below)
    (seen : edge.output ∈ path) : tree.FirstReturn path (edge :: rest) [edge.output] := by
  refine ⟨[0], .back rfl (by rw [found]; rfl) seen, fun places' keys' returns' => ?_⟩
  obtain ⟨place, more, rfl⟩ := returns'.places_eq_cons
  rcases Nat.eq_zero_or_pos place with rfl | later
  · exact List.cons_le_cons 0 (not_lt.mp (List.not_lt_nil more))
  · exact le_of_lt (List.Lex.rel later)

/-- What comes back below the first edge comes before all that comes back by another one. -/
theorem Tree.FirstReturn.below {below : List Edge} (found : tree.edges? edge.output = some below)
    (fresh : edge.output ∉ path) (first : tree.FirstReturn (path ++ [edge.output]) below keys) :
    tree.FirstReturn path (edge :: rest) (edge.output :: keys) := by
  obtain ⟨places, returns, before⟩ := first
  refine ⟨0 :: places, .on rfl found fresh returns, fun places' keys' returns' => ?_⟩
  rcases Tree.returns_cons.mp returns' with ⟨more', rfl, here⟩ | ⟨place', more', rfl, -⟩
  · obtain ⟨keys'', -, inside⟩ := (Tree.returns_node found fresh).mp here
    exact List.cons_le_cons 0 (before _ _ inside)
  · exact le_of_lt (List.Lex.rel (Nat.succ_pos place'))

/-- A walk that is refused tells the first way in which its edges come back. -/
theorem Tree.firstReturn_of_leavesFrom_eq_error {before : List StageRef} {edges : List Edge}
    {cycle : Cycle} (refused : tree.leavesFrom path before edges = .error cycle) :
    ∃ keys, cycle.path = path ++ keys ∧ tree.FirstReturn path edges keys := by
  induction path, before, edges using Tree.leavesFrom.induct tree generalizing cycle with
  | case1 path before =>
    rw [Tree.leavesFrom_nil] at refused
    cases refused
  | case2 path before edge rest sink ih =>
    rw [Tree.leavesFrom_sink sink, map_eq_error] at refused
    obtain ⟨keys, told, first⟩ := ih refused
    exact ⟨keys, told, first.later fun _ _ => Tree.not_returns_sink sink⟩
  | case3 path before edge rest edges found seen =>
    rw [Tree.leavesFrom_seen found seen] at refused
    cases refused
    exact ⟨_, rfl, .seen found seen⟩
  | case4 path before edge rest edges found fresh ihBelow ihRest =>
    rw [Tree.leavesFrom_node found fresh] at refused
    -- the walk is refused below the first edge, or comes to the end there and is refused later
    rcases bind_eq_error.mp refused with inner | ⟨below, inner, others⟩
    · obtain ⟨keys, told, first⟩ := ihBelow inner
      refine ⟨edge.output :: keys, ?_, first.below found fresh⟩
      rw [told, List.append_assoc, List.singleton_append]
    · obtain ⟨keys, told, first⟩ := ihRest (map_eq_error.mp others)
      refine ⟨keys, told, first.later fun places keys' returns => ?_⟩
      -- the first edge has been walked to the end
      obtain ⟨more, -, inside⟩ := (Tree.returns_node found fresh).mp returns
      exact Tree.not_returns_of_leavesFrom_eq_ok inner _ _ inside

end

/-! ## Loops come back to the path of a node -/

/-- What comes back to a path whose nodes differ is a trail that closes a loop with the path. -/
theorem Tree.Returns.closes {tree : Tree} {path : List String} {edges : List Edge} {places : List Nat}
    {keys : List String} (returns : tree.Returns path edges places keys) (differ : path.Nodup)
    {node : String} (found : tree.edges? node = some edges) :
    tree.Trail node places keys ∧
      ∃ front last, keys = front ++ [last] ∧ (path ++ front).Nodup ∧ last ∈ path ++ front := by
  induction returns generalizing node with
  | back here inner seen =>
    refine ⟨.step found here inner .stay, [], _, rfl, ?_, ?_⟩
    · rwa [List.append_nil]
    · rwa [List.append_nil]
  | @on path _ edge _ _ _ _ here foundBelow fresh _ ih =>
    -- the node below is new on the path, so the nodes on it still differ
    have differ' : (path ++ [edge.output]).Nodup :=
      List.nodup_append.mpr ⟨differ, by simp, fun a mem b mem' same => by
        rw [List.mem_singleton.mp mem'] at same
        exact fresh (same ▸ mem)⟩
    obtain ⟨trail, front, last, rfl, nodup, mem⟩ := ih differ' foundBelow
    rw [List.append_assoc, List.singleton_append] at nodup mem
    exact ⟨.step found here (by rw [foundBelow]; rfl) trail, edge.output :: front, last, rfl,
      nodup, mem⟩

/-- A trail that closes a loop with a path, and with no part of it before, comes back to the path. -/
theorem Tree.Trail.returns {tree : Tree} {node : String} {places : List Nat} {keys : List String}
    (trail : tree.Trail node places keys) {path front : List String} {last : String}
    (split : keys = front ++ [last]) (differ : (path ++ front).Nodup) (mem : last ∈ path ++ front)
    {edges : List Edge} (found : tree.edges? node = some edges) :
    tree.Returns path edges places keys := by
  induction trail generalizing path front edges with
  | stay => simp at split
  | @step node edges' edge place places keys found' here inner trail ih =>
    rw [found'] at found
    cases found
    cases front with
    | nil =>
      -- the trail ends with its first edge
      simp only [List.nil_append, List.cons.injEq] at split
      obtain ⟨rfl, rfl⟩ := split
      cases trail
      rw [List.append_nil] at mem
      exact .back here inner mem
    | cons key front =>
      obtain ⟨rfl, rest⟩ := List.cons.inj split
      obtain ⟨below, foundBelow⟩ := Option.isSome_iff_exists.mp inner
      have fresh : edge.output ∉ path := by
        intro seen
        exact (List.nodup_append.mp differ).2.2 _ seen _ List.mem_cons_self rfl
      have along : path ++ edge.output :: front = (path ++ [edge.output]) ++ front := by simp
      rw [along] at differ mem
      exact .on here foundBelow fresh (ih rest differ mem foundBelow)

theorem Tree.returns_iff_loop {tree : Tree} {node : String} {edges : List Edge}
    (found : tree.edges? node = some edges) {places : List Nat} {keys : List String} :
    tree.Returns [node] edges places keys ↔ tree.Loop node places (node :: keys) := by
  constructor
  · intro returns
    obtain ⟨trail, front, last, rfl, nodup, mem⟩ := returns.closes (by simp) found
    exact ⟨rfl, trail, node :: front, last, rfl, nodup, mem⟩
  · rintro ⟨-, trail, front, last, split, nodup, mem⟩
    cases front with
    | nil => cases mem
    | cons key front =>
      obtain ⟨rfl, rest⟩ := List.cons.inj split
      exact trail.returns rest nodup mem found

/-! ## Refused inputs -/

/-- An input is refused with a path exactly if the path is the first loop from it. -/
theorem Tree.leaves_eq_error_iff {tree : Tree} {node : String} {edges : List Edge}
    (found : tree.edges? node = some edges) (path : List String) :
    tree.leaves node = .error ⟨path⟩ ↔ tree.FirstLoop node path := by
  -- what is told is the first loop; there is only one, so the converse needs a refusal alone
  have of_refused {cycle : Cycle} (refused : tree.leaves node = .error cycle) :
      tree.FirstLoop node cycle.path := by
    rw [Tree.leaves, found] at refused
    obtain ⟨keys, told, places, returns, before⟩ := Tree.firstReturn_of_leavesFrom_eq_error refused
    refine ⟨places, ?_, fun places' path' loop => ?_⟩
    · rw [told]
      exact (Tree.returns_iff_loop found).mp returns
    · rw [List.eq_cons_of_mem_head? loop.starts] at loop
      exact before _ _ ((Tree.returns_iff_loop found).mpr loop)
  constructor
  · exact of_refused
  · intro first
    cases result : tree.leaves node with
    | error cycle =>
      obtain rfl : cycle.path = path := (of_refused result).unique first
      rfl
    | ok leaves =>
      -- a walk to the end would have met the loop
      obtain ⟨places, loop, -⟩ := first
      rw [List.eq_cons_of_mem_head? loop.starts] at loop
      rw [Tree.leaves, found] at result
      exact absurd ((Tree.returns_iff_loop found).mpr loop)
        (Tree.not_returns_of_leavesFrom_eq_ok result _ _)

theorem Tree.Trail.inner {tree : Tree} {node : String} {places : List Nat} {keys : List String}
    (trail : tree.Trail node places keys) : ∀ key ∈ keys, (tree.edges? key).isSome := by
  induction trail with
  | stay => intro key mem; cases mem
  | step _ _ inner _ ih =>
    intro key mem
    rcases List.mem_cons.mp mem with rfl | mem
    · exact inner
    · exact ih key mem

/-- A loop passes every node of the tree once at most, before it comes back to one of them. -/
theorem Tree.Loop.length_le {tree : Tree} {node : String} {places : List Nat} {path : List String}
    (loop : tree.Loop node places path) (inner : (tree.edges? node).isSome) :
    path.length ≤ tree.length + 1 := by
  obtain ⟨front, last, split, nodup, -⟩ := loop.closes
  -- all nodes but the last one differ, and each has a place of its own in the tree
  have passed : front ⊆ tree.map (·.1) := by
    intro key mem
    have onPath : key ∈ path := by simp [split, mem]
    rw [List.eq_cons_of_mem_head? loop.starts] at onPath
    rw [← lookup_isSome_iff]
    rcases List.mem_cons.mp onPath with rfl | behind
    · exact inner
    · exact loop.trail.inner key behind
  have le : front.length ≤ (tree.map (·.1)).length := (nodup.subperm passed).length_le
  rw [List.length_map] at le
  rw [split, List.length_append, List.length_singleton]
  omega

/-- An input is refused if and only if a cycle is in reach, and then it is told the first loop from
the input: the first way, depth first and in the order of the edges, along edges from the input to a
node that has been passed, where all nodes before differ. The walk is never deeper than the tree has
nodes. -/
theorem refused_iff_firstLoop {text : String} {name : Option String} {e : Experiment}
    (read : Experiment.read text name = .ok e) {input : Input} (mem : input ∈ e.inputs) :
    ((∃ cycle, e.tree.leaves input.identifier = .error cycle) ↔
      e.tree.CycleBelow input.identifier) ∧
    (∀ path, e.tree.leaves input.identifier = .error ⟨path⟩ ↔
      e.tree.FirstLoop input.identifier path) ∧
    ∀ places path, e.tree.Loop input.identifier places path → path.length ≤ e.tree.length + 1 := by
  have inner := (wellFormed_of_read read).inputs_mem input mem
  obtain ⟨edges, found⟩ := Option.isSome_iff_exists.mp inner
  refine ⟨?_, Tree.leaves_eq_error_iff found, fun places path loop => loop.length_le inner⟩
  have accepted := Tree.leaves_isOk_iff found
  constructor
  · rintro ⟨cycle, refused⟩
    by_contra acyclic
    obtain ⟨leaves, ok⟩ := accepted.mpr acyclic
    rw [refused] at ok
    cases ok
  · intro cyclic
    cases result : e.tree.leaves input.identifier with
    | error cycle => exact ⟨cycle, rfl⟩
    | ok leaves => exact absurd cyclic (accepted.mp ⟨leaves, result⟩)

/-- Two loops are in reach of the input. The longer one, which leads back to the input itself, is met
later; on the way to the first one a sink and a node without a loop are passed. -/
def twoLoops : String :=
  "inputs: [a]\ntree:\n  a: [-> d, -> b]\n  b: [-> x, -> c]\n  c: [-> d, -> b, -> a]\n  d: -> y"

/-- The tree that `twoLoops` describes. -/
def twoLoopsTree : Tree :=
  [("a", [⟨[], "d", .materialize⟩, ⟨[], "b", .materialize⟩]),
    ("b", [⟨[], "x", .sink⟩, ⟨[], "c", .materialize⟩]),
    ("c", [⟨[], "d", .materialize⟩, ⟨[], "b", .materialize⟩, ⟨[], "a", .materialize⟩]),
    ("d", [⟨[], "y", .sink⟩])]

theorem twoLoopsTree_leaves : twoLoopsTree.leaves "a" = .error ⟨["a", "b", "c", "b"]⟩ := by
  -- below `d` there is a sink only, wherever the walk comes by it
  have below_d (path : List String) (before : List StageRef) :
      twoLoopsTree.leavesFrom path before [⟨[], "y", .sink⟩] = .ok [⟨before, "y"⟩] := by
    refine Eq.trans (Tree.leavesFrom_sink rfl) ?_
    rw [Tree.leavesFrom_nil]
    simp [Except.map, Edge.steps]
  have below_c (before : List StageRef) : twoLoopsTree.leavesFrom ["a", "b", "c"] before
      [⟨[], "d", .materialize⟩, ⟨[], "b", .materialize⟩, ⟨[], "a", .materialize⟩] =
        .error ⟨["a", "b", "c", "b"]⟩ := by
    refine Eq.trans (Tree.leavesFrom_node rfl (by decide)) ?_
    rw [below_d, Tree.leavesFrom_seen rfl (by decide)]
    rfl
  have below_b (before : List StageRef) : twoLoopsTree.leavesFrom ["a", "b"] before
      [⟨[], "x", .sink⟩, ⟨[], "c", .materialize⟩] = .error ⟨["a", "b", "c", "b"]⟩ := by
    refine Eq.trans (Tree.leavesFrom_sink rfl) ?_
    rw [Tree.leavesFrom_node rfl (by decide)]
    exact congrArg (Except.map _) (congrArg (Except.bind · _) (below_c _))
  refine Eq.trans (Tree.leavesFrom_node rfl (by decide)) ?_
  rw [below_d, Tree.leavesFrom_node rfl (by decide)]
  exact congrArg (Except.map _) (congrArg (Except.bind · _) (below_b _))

theorem twoLoops_refused :
    ∃ e, Experiment.read twoLoops none = .ok e ∧ ⟨"a", .file, "a"⟩ ∈ e.inputs ∧
      e.tree.CycleBelow "a" ∧ e.tree.FirstLoop "a" ["a", "b", "c", "b"] := by
  have described : (Experiment.read twoLoops none).map (fun e => (e.inputs, e.tree)) =
      .ok ([⟨"a", .file, "a"⟩], twoLoopsTree) := by decide +kernel
  obtain ⟨e, result, parts⟩ := map_eq_ok.mp described
  obtain ⟨inputs, tree⟩ := Prod.mk.inj parts
  have refused : e.tree.leaves "a" = .error ⟨["a", "b", "c", "b"]⟩ := by
    rw [tree, twoLoopsTree_leaves]
  have mem : ⟨"a", .file, "a"⟩ ∈ e.inputs := by simp [inputs]
  obtain ⟨cyclic, told, -⟩ := refused_iff_firstLoop result mem
  exact ⟨e, result, mem, cyclic.mp ⟨_, refused⟩, (told _).mp refused⟩

end Branchwork.Experiment
