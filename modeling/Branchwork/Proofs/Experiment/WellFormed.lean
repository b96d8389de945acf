import Branchwork.Experiment.Basic
import Branchwork.Proofs.Result
import Branchwork.Proofs.Table

/-!
# Well-formed experiments

An experiment that was read from its description has edges at every node of its tree, its edges end
a path exactly where they lead to no node, and its inputs are nodes of the tree.

Main result: `wellFormed_of_read`.
-/

namespace Branchwork.Experiment

/-- What the description of an experiment is checked for. -/
structure WellFormed (e : Experiment) : Prop where
  edges_ne_nil : ∀ key edges, e.tree.edges? key = some edges → edges ≠ []
  policy_eq_sink : ∀ key edges, e.tree.edges? key = some edges → ∀ edge ∈ edges,
    edge.policy = .sink ↔ e.tree.edges? edge.output = none
  inputs_mem : ∀ input ∈ e.inputs, (e.tree.edges? input.identifier).isSome

/-! ## Nodes -/

theorem Tree.put_eq (key : String) (edges : List Edge) (tree : Tree) :
    tree.put key edges = Table.put key edges tree := by
  induction tree with
  | nil => rfl
  | cons node rest ih =>
    rw [Tree.put, Table.put, ih]
    split
    · rename_i here
      rw [here]
    · rfl

theorem Tree.edges?_put (tree : Tree) (key other : String) (edges : List Edge) :
    (tree.put key edges).edges? other = if other = key then some edges else tree.edges? other := by
  rw [Tree.edges?, Tree.put_eq, lookup_put]
  rfl

/-- The place of an edge of a node in the description. -/
def edgePlace (node : String) (index : Nat) : String := s!"tree['{node}'][{index}]"

theorem readEdges_eq_mapM (keys : List String) (node : String) (i : Nat) (data : List Value) :
    readEdges keys node i data =
      (data.zipIdx i).mapM fun given => Edge.read keys (edgePlace node given.2) given.1 := by
  induction data generalizing i with
  | nil => rfl
  | cons v rest ih =>
    rw [List.zipIdx_cons, List.mapM_cons, ← ih]
    rfl

/-- The edges of a node are read one by one. -/
theorem readEdges_eq_ok {keys : List String} {node : String} {i : Nat} {data : List Value}
    {edges : List Edge} : readEdges keys node i data = .ok edges ↔
      List.Forall₂ (fun given edge => Edge.read keys (edgePlace node given.2) given.1 = .ok edge)
        (data.zipIdx i) edges := by
  rw [readEdges_eq_mapM, mapM_eq_ok]

theorem length_readEdges {keys : List String} {node : String} {i : Nat} {data : List Value}
    {edges : List Edge} (h : readEdges keys node i data = .ok edges) :
    edges.length = data.length := by
  rw [← (readEdges_eq_ok.mp h).length_eq, List.length_zipIdx]

theorem exists_of_mem_readEdges {keys : List String} {node : String} {i : Nat} {data : List Value}
    {edges : List Edge} (h : readEdges keys node i data = .ok edges) {edge : Edge}
    (mem : edge ∈ edges) : ∃ place v, Edge.read keys place v = .ok edge := by
  obtain ⟨given, -, read⟩ := exists_of_forall₂ (readEdges_eq_ok.mp h).flip mem
  exact ⟨_, _, read⟩

/-- What every list of edges has that is read for a node, the edges of every node have. -/
theorem Tree.edges_of_ofEntries {P : List Edge → Prop} {keys : List String}
    {entries : List (String × Value)} {start tree : Tree}
    (kept : ∀ key edges, start.edges? key = some edges → P edges)
    (each : ∀ key data edges, edgeList data ≠ [] →
      readEdges keys key 0 (edgeList data) = .ok edges → P edges)
    (h : Tree.ofEntries keys start entries = .ok tree) :
    ∀ key edges, tree.edges? key = some edges → P edges := by
  induction entries generalizing start with
  | nil => cases h; exact kept
  | cons entry rest ih =>
    obtain ⟨key, data⟩ := entry
    rw [Tree.ofEntries] at h
    have nonempty : edgeList data ≠ [] := by
      intro empty
      rw [empty] at h
      cases h
    rw [if_neg (by simpa using nonempty)] at h
    obtain ⟨edges, read, h⟩ := bind_eq_ok.mp h
    refine ih (fun other edges' found => ?_) h
    rw [Tree.edges?_put] at found
    by_cases same : other = key
    · rw [if_pos same] at found
      cases found
      exact each key data edges nonempty read
    · rw [if_neg same] at found
      exact kept other edges' found

theorem Tree.edges?_isSome_of_ofEntries {keys : List String} {entries : List (String × Value)}
    {start tree : Tree} (h : Tree.ofEntries keys start entries = .ok tree) (key : String) :
    (tree.edges? key).isSome ↔ (start.edges? key).isSome ∨ key ∈ entries.map (·.1) := by
  induction entries generalizing start with
  | nil => cases h; simp
  | cons entry rest ih =>
    obtain ⟨node, data⟩ := entry
    rw [Tree.ofEntries] at h
    split at h
    · cases h
    · obtain ⟨edges, -, h⟩ := bind_eq_ok.mp h
      rw [ih h, Tree.edges?_put, List.map_cons, List.mem_cons]
      by_cases same : key = node
      · simp [same]
      · simp [same]

theorem Tree.read_edges_ne_nil {v : Value} {tree : Tree} (h : Tree.read v = .ok tree) :
    ∀ key edges, tree.edges? key = some edges → edges ≠ [] := by
  cases v with
  | map entries =>
    obtain ⟨keyed, -, h⟩ := bind_eq_ok.mp h
    refine Tree.edges_of_ofEntries (fun key edges found => by cases found) ?_ h
    rintro key data _ nonempty read rfl
    have none_left := length_readEdges read
    exact nonempty (List.length_eq_zero_iff.mp none_left.symm)
  | _ => cases h

/-! ## Policies -/

theorem policyOf_eq_sink (isInternal : Bool) (output : String) (written : Option Bool) :
    policyOf isInternal output written = .sink ↔ isInternal = false := by
  unfold policyOf
  cases isInternal with
  | false => simp
  | true =>
    rcases written with _ | _ | _
    · simp only [Bool.not_true, Bool.false_eq_true, if_false]
      split <;> simp
    · simp
    · simp

theorem Edge.policy_of_ofMapping {keys : List String} {place : String} {data : Mapping}
    {edge : Edge} (h : Edge.ofMapping keys place data = .ok edge) :
    edge.policy = .sink ↔ edge.output ∉ keys := by
  obtain ⟨output, -, h⟩ := bind_eq_ok.mp h
  obtain ⟨stages, -, h⟩ := bind_eq_ok.mp h
  obtain ⟨written, -, h⟩ := bind_eq_ok.mp h
  cases h
  rw [policyOf_eq_sink]
  simp

theorem Edge.policy_of_read {keys : List String} {place : String} {v : Value} {edge : Edge}
    (h : Edge.read keys place v = .ok edge) : edge.policy = .sink ↔ edge.output ∉ keys := by
  unfold Edge.read at h
  split at h
  · split at h
    · exact Edge.policy_of_ofMapping h
    · cases h
  · exact Edge.policy_of_ofMapping h
  · cases h

theorem policy_of_readEdges {keys : List String} {node : String} {i : Nat} {data : List Value}
    {edges : List Edge} (h : readEdges keys node i data = .ok edges) :
    ∀ edge ∈ edges, edge.policy = .sink ↔ edge.output ∉ keys := by
  intro edge mem
  obtain ⟨place, v, read⟩ := exists_of_mem_readEdges h mem
  exact Edge.policy_of_read read

/-- An edge ends a path exactly if it leads to no node. -/
theorem Tree.read_policy {v : Value} {tree : Tree} (h : Tree.read v = .ok tree) :
    ∀ key edges, tree.edges? key = some edges → ∀ edge ∈ edges,
      edge.policy = .sink ↔ tree.edges? edge.output = none := by
  cases v with
  | map entries =>
    obtain ⟨keyed, -, h⟩ := bind_eq_ok.mp h
    intro key edges found edge mem
    have policy := Tree.edges_of_ofEntries (P := fun edges => ∀ edge ∈ edges,
      edge.policy = .sink ↔ edge.output ∉ keyed.map (·.1)) (fun key edges found => by cases found)
      (fun _ _ _ _ read => policy_of_readEdges read) h key edges found edge mem
    have nodes := Tree.edges?_isSome_of_ofEntries h edge.output
    rw [policy, ← Option.not_isSome_iff_eq_none, nodes]
    simp [Tree.edges?]
  | _ => cases h

/-! ## Inputs -/

theorem Input.identifier_of_read {identifier : String} {input : Input}
    (h : Input.read identifier = .ok input) : input.identifier = identifier := by
  rw [Input.read] at h
  dsimp only at h
  split at h
  · cases h
  · split at h
    · cases h
    · cases h
      rfl

theorem requireEdges_eq_ok {tree : Tree} {identifier : String} :
    requireEdges tree identifier = .ok () ↔ (tree.edges? identifier).isSome := by
  rw [requireEdges]
  cases tree.edges? identifier <;> simp

theorem wellFormed_of_ofMapping {name : Option String} {data : Mapping} {e : Experiment}
    (h : ofMapping name data = .ok e) : e.WellFormed := by
  obtain ⟨_, -, h⟩ := bind_eq_ok.mp h
  obtain ⟨_, -, h⟩ := bind_eq_ok.mp h
  obtain ⟨identifiers, -, h⟩ := bind_eq_ok.mp h
  obtain ⟨_, -, h⟩ := bind_eq_ok.mp h
  obtain ⟨tree, readTree, h⟩ := bind_eq_ok.mp h
  obtain ⟨_, required, h⟩ := bind_eq_ok.mp h
  obtain ⟨_, -, h⟩ := bind_eq_ok.mp h
  obtain ⟨inputs, readInputs, h⟩ := bind_eq_ok.mp h
  cases h
  refine ⟨Tree.read_edges_ne_nil readTree, Tree.read_policy readTree, fun input mem => ?_⟩
  -- an input keeps the identifier that was looked up in the tree
  obtain ⟨identifier, mem', read⟩ := exists_of_mapM_eq_ok readInputs mem
  rw [Input.identifier_of_read read]
  exact requireEdges_eq_ok.mp (forM_eq_ok.mp required identifier mem')

theorem wellFormed_of_read {text : String} {name : Option String} {e : Experiment}
    (h : read text name = .ok e) : e.WellFormed := by
  rw [read] at h
  split at h
  · cases h
  · exact wellFormed_of_ofMapping h
  · cases h

end Branchwork.Experiment
