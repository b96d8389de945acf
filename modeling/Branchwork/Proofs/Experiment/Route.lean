import Branchwork.Proofs.Experiment.Unfolding
import Mathlib.Data.List.Basic

/-!
# Routes

A route leads from a list of edges down to a sink: one of the edges, one of the edges that leave the
node that it leads to, and so on, until an output is no node of the tree. A route is given by the
places of its edges, each counted among the edges that leave its node; routes in the order of their
places are routes in the order of reading.

Main result: `Tree.leaves_eq_routes` — without a cycle in reach there is one leaf for each route, in
the order of the routes, and its stages are read off the route.
-/

open Relation

namespace Branchwork.Experiment

/-- A route through a tree, with the places of its edges. -/
inductive Tree.Route (tree : Tree) : List Edge → List Nat → List Edge → Prop
  | sink {edges edge place} : edges[place]? = some edge → tree.edges? edge.output = none →
      Route tree edges [place] [edge]
  | step {edges edge place below places route} : edges[place]? = some edge →
      tree.edges? edge.output = some below → Route tree below places route →
      Route tree edges (place :: places) (edge :: route)

/-- The stages on a route. The output of an edge that is not the last one is written, unless the
edge says that it is passed through. -/
def routeStages : List Edge → List StageRef
  | [] => []
  | [last] => last.stages.map .named
  | edge :: next :: route =>
    edge.stages.map .named ++
      (if edge.policy = .passthrough then [] else [.materialize edge.output]) ++
      routeStages (next :: route)

/-- The leaf at the end of a route, behind the stages on the way to it. -/
def routeLeaf (before : List StageRef) (route : List Edge) : Leaf :=
  ⟨before ++ routeStages route, (route.getLast?.map Edge.output).getD ""⟩

/-! ## Routes of an unfolding -/

/-- The routes of an unfolding whose first edge has the given place. -/
def Unfolding.routes (place : Nat) : Unfolding → List (List Nat × List Edge)
  | .done => []
  | .sink edge rest => ([place], [edge]) :: rest.routes (place + 1)
  | .node edge below rest =>
    (below.routes 0).map (fun route => (place :: route.1, edge :: route.2)) ++
      rest.routes (place + 1)

theorem Tree.Route.places_ne_nil {tree : Tree} {edges : List Edge} {places : List Nat}
    {route : List Edge} (h : tree.Route edges places route) : ∃ place more, places = place :: more := by
  cases h with
  | sink _ _ => exact ⟨_, _, rfl⟩
  | step _ _ _ => exact ⟨_, _, rfl⟩

/-- A route that does not take the first edge is a route of the other ones. -/
theorem Tree.route_cons_succ {tree : Tree} {edge : Edge} {rest : List Edge} {place : Nat}
    {places : List Nat} {route : List Edge} :
    tree.Route (edge :: rest) ((place + 1) :: places) route ↔
      tree.Route rest (place :: places) route := by
  constructor
  · intro h
    cases h with
    | sink here found => exact .sink (by simpa using here) found
    | step here found below => exact .step (by simpa using here) found below
  · intro h
    cases h with
    | sink here found => exact .sink (by simpa using here) found
    | step here found below => exact .step (by simpa using here) found below

/-- A route takes the first edge, or it is a route of the other ones. -/
theorem Tree.exists_route_cons {tree : Tree} {edge : Edge} {rest : List Edge} {first : Nat}
    {places : List Nat} {route : List Edge} :
    (∃ place more, places = (first + place) :: more ∧
        tree.Route (edge :: rest) (place :: more) route) ↔
      (∃ more, places = first :: more ∧ tree.Route (edge :: rest) (0 :: more) route) ∨
        ∃ place more, places = (first + 1 + place) :: more ∧
          tree.Route rest (place :: more) route := by
  constructor
  · rintro ⟨_ | place, more, rfl, h⟩
    · exact .inl ⟨more, rfl, h⟩
    · exact .inr ⟨place, more, by rw [Nat.add_right_comm, Nat.add_assoc], route_cons_succ.mp h⟩
  · rintro (⟨more, rfl, h⟩ | ⟨place, more, rfl, h⟩)
    · exact ⟨0, more, rfl, h⟩
    · exact ⟨place + 1, more, by rw [Nat.add_right_comm, Nat.add_assoc], route_cons_succ.mpr h⟩

/-- A route ends with its first edge if that leads to no node. -/
theorem Tree.route_of_sink {tree : Tree} {edge : Edge} {rest : List Edge} {more : List Nat}
    {route : List Edge} (sink : tree.edges? edge.output = none) :
    tree.Route (edge :: rest) (0 :: more) route ↔ more = [] ∧ route = [edge] := by
  constructor
  · intro h
    cases h with
    | sink here _ =>
      cases here
      exact ⟨rfl, rfl⟩
    | step here found _ =>
      cases here
      cases sink.symm.trans found
  · rintro ⟨rfl, rfl⟩
    exact .sink rfl sink

/-- A route goes on at the node that its first edge leads to. -/
theorem Tree.route_of_node {tree : Tree} {edge : Edge} {rest below : List Edge} {more : List Nat}
    {route : List Edge} (found : tree.edges? edge.output = some below) :
    tree.Route (edge :: rest) (0 :: more) route ↔
      ∃ inner, route = edge :: inner ∧ tree.Route below more inner := by
  constructor
  · intro h
    cases h with
    | sink here sink =>
      cases here
      cases found.symm.trans sink
    | @step _ _ _ _ _ inner here found' h =>
      cases here
      cases found.symm.trans found'
      exact ⟨inner, rfl, h⟩
  · rintro ⟨inner, rfl, h⟩
    exact .step rfl found h

theorem Tree.Unfolds.mem_routes {tree : Tree} {edges : List Edge} {u : Unfolding}
    (unfolds : tree.Unfolds edges u) (first : Nat) (places : List Nat) (route : List Edge) :
    (places, route) ∈ u.routes first ↔
      ∃ place more, places = (first + place) :: more ∧ tree.Route edges (place :: more) route := by
  induction unfolds generalizing first places route with
  | done =>
    constructor
    · intro mem; cases mem
    · rintro ⟨place, more, -, h⟩
      cases h with
      | sink here _ => simp at here
      | step here _ _ => simp at here
  | @sink edge rest u sink _ ih =>
    rw [Unfolding.routes, List.mem_cons, ih (first + 1), Tree.exists_route_cons]
    refine or_congr_left ?_
    simp [Tree.route_of_sink sink]
  | @node edge edges rest below u found _ _ ihBelow ihRest =>
    rw [Unfolding.routes, List.mem_append, ihRest (first + 1), Tree.exists_route_cons]
    refine or_congr_left ?_
    -- below the edge the places are counted from the beginning
    have whole : ∀ inner innerRoute, (inner, innerRoute) ∈ below.routes 0 ↔
        tree.Route edges inner innerRoute := by
      intro inner innerRoute
      rw [ihBelow 0 inner innerRoute]
      constructor
      · rintro ⟨place, more, rfl, h⟩
        rwa [Nat.zero_add]
      · intro h
        obtain ⟨place, more, rfl⟩ := h.places_ne_nil
        exact ⟨place, more, by rw [Nat.zero_add], h⟩
    simp only [List.mem_map, Prod.exists, whole, Tree.route_of_node found, Prod.mk.injEq]
    constructor
    · rintro ⟨inner, innerRoute, h, rfl, rfl⟩
      exact ⟨inner, rfl, innerRoute, rfl, h⟩
    · rintro ⟨inner, rfl, innerRoute, rfl, h⟩
      exact ⟨inner, innerRoute, h, rfl, rfl⟩

/-- The places of the routes of an unfolding start at its first place or behind it. -/
theorem Unfolding.first_le_of_mem_routes {u : Unfolding} {first : Nat}
    {route : List Nat × List Edge} (mem : route ∈ u.routes first) :
    ∃ place more, route.1 = place :: more ∧ first ≤ place := by
  induction u generalizing first route with
  | done => cases mem
  | sink edge rest ih =>
    rcases List.mem_cons.mp mem with rfl | mem
    · exact ⟨first, [], rfl, Nat.le_refl _⟩
    · obtain ⟨place, more, same, le⟩ := ih mem
      exact ⟨place, more, same, by omega⟩
  | node edge below rest _ ihRest =>
    rcases List.mem_append.mp mem with mem | mem
    · obtain ⟨inner, -, rfl⟩ := List.mem_map.mp mem
      exact ⟨first, inner.1, rfl, Nat.le_refl _⟩
    · obtain ⟨place, more, same, le⟩ := ihRest mem
      exact ⟨place, more, same, by omega⟩

/-- Routes come in the order of their places. -/
theorem Unfolding.routes_pairwise (u : Unfolding) (first : Nat) :
    (u.routes first).Pairwise fun a b => a.1 < b.1 := by
  have later {u : Unfolding} {place first : Nat} (lt : place < first) (places : List Nat) :
      ∀ route ∈ u.routes first, place :: places < route.1 := by
    intro route mem
    obtain ⟨next, more, same, le⟩ := Unfolding.first_le_of_mem_routes mem
    rw [same, List.cons_lt_cons_iff]
    exact .inl (by omega)
  induction u generalizing first with
  | done => exact .nil
  | sink edge rest ih =>
    exact List.pairwise_cons.mpr ⟨later (Nat.lt_succ_self first) [], ih (first + 1)⟩
  | node edge below rest ihBelow ihRest =>
    refine List.pairwise_append.mpr ⟨?_, ihRest (first + 1), ?_⟩
    · refine List.pairwise_map.mpr ((ihBelow 0).imp fun lt => ?_)
      exact List.cons_lt_cons_iff.mpr (.inr ⟨rfl, lt⟩)
    · intro a mem b mem'
      obtain ⟨inner, -, rfl⟩ := List.mem_map.mp mem
      exact later (Nat.lt_succ_self first) inner.1 b mem'

/-! ## Leaves of routes -/

theorem routeLeaf_cons {edge : Edge} {before : List StageRef} {route : List Edge}
    (more : route ≠ []) :
    routeLeaf before (edge :: route) = routeLeaf (before ++ edge.steps true) route := by
  cases route with
  | nil => exact absurd rfl more
  | cons next route =>
    simp only [routeLeaf, routeStages, Edge.steps, List.getLast?_cons_cons]
    by_cases passed : edge.policy = .passthrough <;> simp [passed]

theorem Unfolding.ne_nil_of_mem_routes {u : Unfolding} {first : Nat} {route : List Nat × List Edge}
    (mem : route ∈ u.routes first) : route.2 ≠ [] := by
  induction u generalizing first route with
  | done => cases mem
  | sink edge rest ih =>
    rcases List.mem_cons.mp mem with rfl | mem
    · exact List.cons_ne_nil _ _
    · exact ih mem
  | node edge below rest _ ihRest =>
    rcases List.mem_append.mp mem with mem | mem
    · obtain ⟨inner, -, rfl⟩ := List.mem_map.mp mem
      exact List.cons_ne_nil _ _
    · exact ihRest mem

theorem Unfolding.leaves_eq_map_routes (u : Unfolding) (before : List StageRef) (first : Nat) :
    u.leaves before = (u.routes first).map fun route => routeLeaf before route.2 := by
  induction u generalizing before first with
  | done => rfl
  | sink edge rest ih =>
    rw [Unfolding.leaves, Unfolding.routes, List.map_cons, ih before (first + 1)]
    simp [routeLeaf, routeStages, Edge.steps]
  | node edge below rest ihBelow ihRest =>
    rw [Unfolding.leaves, Unfolding.routes, List.map_append, List.map_map,
      ihBelow (before ++ edge.steps true) 0, ihRest before (first + 1)]
    congr 1
    refine List.map_congr_left fun route mem => ?_
    exact (routeLeaf_cons (ne_nil_of_mem_routes mem)).symm

/-! ## One leaf for each route -/

/-- Below a node from which no cycle can be reached there is one leaf for each route, in the order of
the routes, whatever path and stages lead to the node, as long as nothing leads back to the path. The
path of an input, which is the input alone, is never led back to. -/
theorem Tree.leaves_eq_routes {tree : Tree} {node : String} {edges : List Edge}
    (found : tree.edges? node = some edges) (acyclic : ¬ tree.CycleBelow node) :
    ∃ routes : List (List Nat × List Edge),
      (∀ places route, (places, route) ∈ routes ↔ tree.Route edges places route) ∧
      routes.Pairwise (fun a b => a.1 < b.1) ∧
      (∀ path before, (∀ key ∈ path, ¬ TransGen tree.Leads node key) →
        tree.leavesFrom path before edges =
          .ok (routes.map fun route => routeLeaf before route.2)) ∧
      tree.leaves node = .ok (routes.map fun route => routeLeaf [] route.2) := by
  obtain ⟨u, unfolds, finds⟩ := Tree.exists_unfolds found acyclic
  refine ⟨u.routes 0, fun places route => ?_, u.routes_pairwise 0, fun path before apart => ?_, ?_⟩
  · rw [unfolds.mem_routes 0 places route]
    constructor
    · rintro ⟨place, more, rfl, h⟩
      rwa [Nat.zero_add]
    · intro h
      obtain ⟨place, more, rfl⟩ := h.places_ne_nil
      exact ⟨place, more, by rw [Nat.zero_add], h⟩
  · rw [finds path before apart, u.leaves_eq_map_routes before 0]
  · obtain ⟨v, unfolds', ok⟩ := Tree.leaves_eq_ok found acyclic
    rw [ok, ← unfolds.unique unfolds', u.leaves_eq_map_routes [] 0]

/-- The edges of the input of `fanIn`: two paths lead on to one node, which is written on the first
one, and on the second one behind a node that is passed through. -/
def fanInEdges : List Edge :=
  [⟨["nullFilter"], "mid", .materialize⟩, ⟨[], "side*", .passthrough⟩,
    ⟨["template"], "console", .sink⟩]

/-- A tree in which a node is reached along two paths. -/
def fanIn : Tree :=
  [("in", fanInEdges), ("side*", [⟨["toJSONString"], "mid", .materialize⟩]),
    ("mid", [⟨[], "out-*", .sink⟩, ⟨["template"], "console", .sink⟩])]

theorem fanIn_leaves :
    fanIn.edges? "in" = some fanInEdges ∧ ¬ fanIn.CycleBelow "in" ∧
      ∃ routes : List (List Nat × List Edge),
        (∀ places route, (places, route) ∈ routes ↔ fanIn.Route fanInEdges places route) ∧
        routes.Pairwise (fun a b => a.1 < b.1) ∧
        (∀ path before, (∀ key ∈ path, ¬ TransGen fanIn.Leads "in" key) →
          fanIn.leavesFrom path before fanInEdges =
            .ok (routes.map fun route => routeLeaf before route.2)) ∧
        fanIn.leaves "in" = .ok (routes.map fun route => routeLeaf [] route.2) := by
  have found : fanIn.edges? "in" = some fanInEdges := rfl
  have mid : fanIn.Unfolds [⟨[], "out-*", .sink⟩, ⟨["template"], "console", .sink⟩] _ :=
    .sink rfl (.sink rfl .done)
  have side : fanIn.Unfolds [⟨["toJSONString"], "mid", .materialize⟩] _ := .node rfl mid .done
  have unfolds : fanIn.Unfolds fanInEdges _ := .node rfl mid (.node rfl side (.sink rfl .done))
  have acyclic := unfolds.not_cycleBelow found
  exact ⟨found, acyclic, Tree.leaves_eq_routes found acyclic⟩

end Branchwork.Experiment
