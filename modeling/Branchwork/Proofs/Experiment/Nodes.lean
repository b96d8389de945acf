import Branchwork.Proofs.Experiment.WellFormed

/-!
# The nodes of a description

A tree is described by a mapping with an entry for each node. Every entry is read: its key stands for
its text, and every edge that is written in it becomes an edge of the node, in order. A single edge may
stand without a list.

The nodes are kept in a table under the texts of their keys. Keys that are different values may have one
text, such as the number `1` and the text `1`. Then the later entry takes the place of the earlier one,
whose edges are lost. Where no two keys have one text, the tree is what the entries say.

Main results:

* `Tree.read_eq_ok_iff` — which trees are read from a mapping.
* `Tree.read_keeps_last` — when every entry has its node.
-/

namespace Branchwork.Experiment

/-- A node as an entry says it: its key is the text of the key, and it has an edge for each edge that
is written in the entry, in order. -/
structure NodeOf (keys : List String) (entry : Value × Value) (node : String × List Edge) : Prop where
  key : entry.1.plain? = some node.1
  written : edgeList entry.2 ≠ []
  edges : List.Forall₂ (fun given edge => Edge.read keys (edgePlace node.1 given.2) given.1 = .ok edge)
    (edgeList entry.2).zipIdx node.2

/-- A node has as many edges as are written in its entry. -/
theorem NodeOf.length {keys : List String} {entry : Value × Value} {node : String × List Edge}
    (h : NodeOf keys entry node) : node.2.length = (edgeList entry.2).length := by
  rw [← h.edges.length_eq, List.length_zipIdx]

theorem keyed_iff_plain {entry : Value × Value} {row : String × Value} :
    keyed entry = .ok row ↔ entry.1.plain? = some row.1 ∧ row.2 = entry.2 := by
  obtain ⟨key, data⟩ := entry
  obtain ⟨text, data'⟩ := row
  rw [keyed]
  cases key.plain? with
  | none => simp
  | some text' => simp [eq_comm]

theorem plain_of_plain? {v : Value} {text : String} (h : v.plain? = some text) : v.plain = text := by
  unfold Value.plain? at h
  split at h
  · cases h
  · exact Option.some.inj h

/-- The nodes of entries whose keys have become texts are put into the tree in order. -/
theorem Tree.ofEntries_eq_ok {keys : List String} {start tree : Tree} {rows : List (String × Value)} :
    Tree.ofEntries keys start rows = .ok tree ↔
      ∃ nodes, List.Forall₂ (fun row node => node.1 = row.1 ∧ edgeList row.2 ≠ [] ∧
        readEdges keys row.1 0 (edgeList row.2) = .ok node.2) rows nodes ∧
        tree = Table.putAll start nodes := by
  induction rows generalizing start with
  | nil =>
    constructor
    · intro h
      cases h
      exact ⟨[], .nil, rfl⟩
    · rintro ⟨nodes, same, rfl⟩
      cases same
      rfl
  | cons row rest ih =>
    obtain ⟨key, data⟩ := row
    have step : Tree.ofEntries keys start ((key, data) :: rest) =
        if (edgeList data).isEmpty then .error (.noEdges key)
        else readEdges keys key 0 (edgeList data) >>= fun edges =>
          Tree.ofEntries keys (start.put key edges) rest := by
      rw [Tree.ofEntries]
      split <;> rfl
    rw [step]
    constructor
    · intro h
      split at h
      · cases h
      · rename_i written
        obtain ⟨edges, first, h⟩ := bind_eq_ok.mp h
        obtain ⟨nodes, others, rfl⟩ := ih.mp h
        refine ⟨(key, edges) :: nodes, .cons ⟨rfl, by simpa using written, first⟩ others, ?_⟩
        rw [Table.putAll_cons, Tree.put_eq]
    · rintro ⟨nodes, same, rfl⟩
      cases same with
      | @cons _ node _ nodes first others =>
        obtain ⟨name, edges⟩ := node
        obtain ⟨rfl, written, first⟩ := first
        rw [if_neg (by simpa using written), first]
        exact ih.mpr ⟨nodes, others, by rw [Table.putAll_cons, Tree.put_eq]⟩

/-- Lists that are related member by member to one list between them are related to each other. -/
theorem forall₂_between {α β γ : Type} {R : α → β → Prop} {S : β → γ → Prop} {xs : List α}
    {zs : List γ} : (∃ ys, List.Forall₂ R xs ys ∧ List.Forall₂ S ys zs) ↔
      List.Forall₂ (fun x z => ∃ y, R x y ∧ S y z) xs zs := by
  constructor
  · rintro ⟨ys, left, right⟩
    induction left generalizing zs with
    | nil =>
      cases right
      exact .nil
    | cons first _ ih =>
      cases right with
      | cons second rest => exact .cons ⟨_, first, second⟩ (ih rest)
  · intro both
    induction both with
    | nil => exact ⟨[], .nil, .nil⟩
    | cons first _ ih =>
      obtain ⟨y, left, right⟩ := first
      obtain ⟨ys, lefts, rights⟩ := ih
      exact ⟨y :: ys, .cons left lefts, .cons right rights⟩

/-- A mapping describes the tree that is filled with the nodes of its entries in order, and it is read
exactly if every entry has a node. -/
theorem Tree.read_eq_ok_iff {entries : Mapping} {tree : Tree} :
    Tree.read (.map entries) = .ok tree ↔
      ∃ nodes, List.Forall₂ (NodeOf (nodes.map (·.1))) entries nodes ∧ Table.KeepsLast nodes tree := by
  have steps : Tree.read (.map entries) = .ok tree ↔ ∃ rows, entries.mapM keyed = .ok rows ∧
      Tree.ofEntries (rows.map (·.1)) [] rows = .ok tree := bind_eq_ok
  -- between an entry and its node stands the row with the text of the key
  have throughRow (keys : List String) (nodes : List (String × List Edge)) :
      List.Forall₂ (NodeOf keys) entries nodes ↔ ∃ rows,
        List.Forall₂ (fun entry row => keyed entry = .ok row) entries rows ∧
        List.Forall₂ (fun row node => node.1 = row.1 ∧ edgeList row.2 ≠ [] ∧
          readEdges keys row.1 0 (edgeList row.2) = .ok node.2) rows nodes := by
    rw [forall₂_between]
    refine ⟨fun h => h.imp fun entry node here => ?_, fun h => h.imp fun entry node here => ?_⟩
    · refine ⟨(node.1, entry.2), keyed_iff_plain.mpr ⟨here.key, rfl⟩, rfl, here.written, ?_⟩
      rw [readEdges_eq_ok]
      exact here.edges
    · obtain ⟨⟨text, data⟩, isRow, rfl, written, edges⟩ := here
      obtain ⟨key, rfl⟩ := keyed_iff_plain.mp isRow
      rw [readEdges_eq_ok] at edges
      exact ⟨key, written, edges⟩
  -- the keys of the rows are those of the nodes, so both lists of keys mean the same
  have sameKeys {rows : List (String × Value)} {nodes : List (String × List Edge)}
      {P : String × Value → String × List Edge → Prop}
      (related : List.Forall₂ (fun row node => node.1 = row.1 ∧ P row node) rows nodes) :
      rows.map (·.1) = nodes.map (·.1) := by
    induction related with
    | nil => rfl
    | cons first _ ih => rw [List.map_cons, List.map_cons, first.1, ih]
  rw [steps]
  simp only [Tree.ofEntries_eq_ok, Table.keepsLast_iff, mapM_eq_ok, throughRow]
  constructor
  · rintro ⟨rows, texts, nodes, related, rfl⟩
    rw [sameKeys related] at related
    exact ⟨nodes, ⟨rows, texts, related⟩, rfl⟩
  · rintro ⟨nodes, ⟨rows, texts, related⟩, rfl⟩
    rw [← sameKeys related] at related
    exact ⟨rows, texts, nodes, related, rfl⟩

/-- Every entry of a mapping that is read has its node, and of two entries whose keys have one text the
later one counts: it takes the place of the earlier one. So the tree has a node for every entry, in
order, exactly if no two keys have one text. -/
theorem Tree.read_keeps_last {entries : Mapping} {tree : Tree}
    (read : Tree.read (.map entries) = .ok tree) :
    ∃ nodes, List.Forall₂ (NodeOf (nodes.map (·.1))) entries nodes ∧ Table.KeepsLast nodes tree ∧
      (tree = nodes ↔ (entries.map (·.1.plain)).Nodup) := by
  obtain ⟨nodes, each, kept⟩ := Tree.read_eq_ok_iff.mp read
  have texts : entries.map (·.1.plain) = nodes.map (·.1) := by
    have related : List.Forall₂ (· = ·) (entries.map (·.1.plain)) (nodes.map (·.1)) := by
      rw [List.forall₂_map_left_iff, List.forall₂_map_right_iff]
      exact each.imp fun entry node h => plain_of_plain? h.key
    rwa [List.forall₂_eq_eq_eq] at related
  refine ⟨nodes, each, kept, ?_⟩
  rw [texts]
  constructor
  · rintro rfl
    exact kept.once
  · exact kept.eq_of_nodup

/-- Two entries, under a number and under the text of that number. -/
def twiceOne : Mapping := [(.int 1, .text "-> a"), (.text "1", .text "-> b")]

/-- The edge of the first entry is lost. -/
theorem Tree.twiceOne_keeps_last :
    Tree.read (.map twiceOne) = .ok [("1", [⟨[], "b", .sink⟩])] ∧
      ∃ nodes, List.Forall₂ (NodeOf (nodes.map (·.1))) twiceOne nodes ∧
        Table.KeepsLast nodes [("1", [⟨[], "b", .sink⟩])] ∧ [("1", [⟨[], "b", .sink⟩])] ≠ nodes := by
  have read : Tree.read (.map twiceOne) = .ok [("1", [⟨[], "b", .sink⟩])] := by decide +kernel
  obtain ⟨nodes, each, kept, whole⟩ := Tree.read_keeps_last read
  exact ⟨read, nodes, each, kept, fun same => absurd (whole.mp same) (by decide +kernel)⟩

end Branchwork.Experiment
