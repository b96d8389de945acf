import Branchwork.Proofs.Experiment.EdgeBelow
import Branchwork.Proofs.Experiment.WellFormed
import Branchwork.Proofs.Text.Blank

/-!
# What a description says

The nodes of a tree are named once, every input is spelt by its identifier, and the output of every
edge is a text without blanks at its ends. The policies of the edges are found out from the keys of
the description, before there is a tree; flattening asks the finished tree instead. The two agree:
whoever goes by the policies, and takes every other output than that of a sink for a node, never
looks for a node that is not there.

Main results:

* `Tree.followFrom_eq_leavesFrom` — to flatten by the policies is to flatten by the nodes.
* `read_describes` — what holds of every experiment that was read.
-/

namespace Branchwork.Experiment

/-! ## Inputs -/

/-- What an identifier begins with for a kind of input. -/
def InputKind.mark : InputKind → String
  | .file | .capture => ""
  | .fileText | .captureUnstyled => "!"

/-- An identifier spells the kind and the pattern of its input. -/
structure Input.Spelt (input : Input) : Prop where
  identifier_eq : input.identifier = input.kind.mark ++ input.pattern
  marked_iff : input.identifier.toList.head? = some '!' ↔
    input.kind = .fileText ∨ input.kind = .captureUnstyled
  pattern_ne : input.pattern ≠ ""
  isCapture_iff : input.kind.isCapture = true ↔
    "http://".toList <+: input.pattern.toList ∨ "https://".toList <+: input.pattern.toList
  supported : input.kind.isCapture = false → ∀ c ∈ ['?', '[', ']'], c ∉ input.pattern.toList

theorem isAddress_iff {pattern : List Char} :
    isAddress pattern = true ↔
      "http://".toList <+: pattern ∨ "https://".toList <+: pattern := by
  simp [isAddress, addressStarts]

/-- A text is the mark, if it has it, and what is left without it. -/
theorem splitMark_spec (s : List Char) :
    s = (if (splitMark s).1 then [plainMark] else []) ++ (splitMark s).2 ∧
      (s.head? = some plainMark ↔ (splitMark s).1 = true) := by
  cases s with
  | nil => exact ⟨rfl, by simp [splitMark]⟩
  | cons c rest =>
    by_cases marked : c = plainMark
    · subst marked
      exact ⟨rfl, by simp [splitMark]⟩
    · simp [splitMark, marked]

theorem kindOf_mark (plain address : Bool) :
    (kindOf plain address).mark.toList = if plain then [plainMark] else [] := by
  cases plain <;> cases address <;> rfl

theorem kindOf_marked_iff (plain address : Bool) :
    (kindOf plain address = .fileText ∨ kindOf plain address = .captureUnstyled) ↔
      plain = true := by
  cases plain <;> cases address <;> simp [kindOf]

theorem kindOf_isCapture (plain address : Bool) : (kindOf plain address).isCapture = address := by
  cases plain <;> cases address <;> rfl

theorem Input.spelt_of_read {identifier : String} {input : Input}
    (h : Input.read identifier = .ok input) : input.Spelt := by
  obtain ⟨split, marked⟩ := splitMark_spec identifier.toList
  rw [Input.read] at h
  generalize splitMark identifier.toList = parts at h split marked
  obtain ⟨plain, pattern⟩ := parts
  dsimp only at h split marked
  -- the identifier passed both checks: there is a pattern, and its wildcards are supported
  split at h
  · cases h
  rename_i nonempty
  split at h
  · cases h
  rename_i supported
  cases h
  refine ⟨?_, ?_, ?_, ?_, ?_⟩
  · show identifier = (kindOf plain (isAddress pattern)).mark ++ String.ofList pattern
    rw [← String.toList_inj, String.toList_append, kindOf_mark, String.toList_ofList]
    exact split
  · rw [kindOf_marked_iff]
    exact marked
  · intro empty
    rw [← String.toList_inj, String.toList_ofList] at empty
    exact nonempty (by rw [empty]; rfl)
  · have address : isAddress pattern = true ↔ _ := isAddress_iff
    rw [← kindOf_isCapture plain (isAddress pattern), ← String.toList_ofList (l := pattern)]
      at address
    simpa only [String.toList_ofList] using address
  · intro file c mem inside
    rw [kindOf_isCapture] at file
    rw [String.toList_ofList] at inside
    -- the character would have been found
    have found : c ∈ unsupportedWildcards.filter pattern.contains :=
      List.mem_filter.mpr ⟨mem, List.contains_iff_mem.mpr inside⟩
    refine supported ?_
    rw [file]
    cases wildcards : unsupportedWildcards.filter pattern.contains with
    | nil => rw [wildcards] at found; cases found
    | cons _ _ => rfl

/-! ## Edges -/

/-- A text is not empty and has no blank at either end. -/
structure Trimmed (s : String) : Prop where
  ne_empty : s ≠ ""
  first : ∀ c ∈ s.toList.head?, Text.isBlank c = false
  last : ∀ c ∈ s.toList.getLast?, Text.isBlank c = false

theorem trimmed_trimText {s : String} (nonempty : trimText s ≠ "") : Trimmed (trimText s) := by
  refine ⟨nonempty, ?_, ?_⟩
  · rw [trimText, String.toList_ofList]
    exact Text.trim_first
  · rw [trimText, String.toList_ofList]
    exact Text.trim_last

theorem trimmed_of_readOutput {place : String} {data : Mapping} {output : String}
    (h : readOutput place data = .ok output) : Trimmed output := by
  unfold readOutput at h
  split at h
  · split at h
    · cases h
    · cases h
      exact trimmed_trimText ‹_›
  · cases h

theorem Edge.trimmed_of_ofMapping {keys : List String} {place : String} {data : Mapping}
    {edge : Edge} (h : Edge.ofMapping keys place data = .ok edge) : Trimmed edge.output := by
  obtain ⟨output, read, h⟩ := bind_eq_ok.mp h
  obtain ⟨stages, -, h⟩ := bind_eq_ok.mp h
  obtain ⟨written, -, h⟩ := bind_eq_ok.mp h
  cases h
  exact trimmed_of_readOutput read

theorem Edge.trimmed_of_read {keys : List String} {place : String} {v : Value} {edge : Edge}
    (h : Edge.read keys place v = .ok edge) : Trimmed edge.output := by
  unfold Edge.read at h
  split at h
  · split at h
    · exact Edge.trimmed_of_ofMapping h
    · cases h
  · exact Edge.trimmed_of_ofMapping h
  · cases h

theorem trimmed_of_readEdges {keys : List String} {node : String} {i : Nat} {data : List Value}
    {edges : List Edge} (h : readEdges keys node i data = .ok edges) :
    ∀ edge ∈ edges, Trimmed edge.output := by
  intro edge mem
  obtain ⟨place, v, read⟩ := exists_of_mem_readEdges h mem
  exact Edge.trimmed_of_read read

theorem Tree.read_trimmed {v : Value} {tree : Tree} (h : Tree.read v = .ok tree) :
    ∀ key edges, tree.edges? key = some edges → ∀ edge ∈ edges, Trimmed edge.output := by
  cases v with
  | map entries =>
    obtain ⟨keyed, -, h⟩ := bind_eq_ok.mp h
    refine Tree.edges_of_ofEntries (fun key edges found => by cases found) ?_ h
    exact fun _ _ _ _ read => trimmed_of_readEdges read
  | _ => cases h

/-! ## Nodes -/

/-- The keys of a tree. -/
def Tree.keys (tree : Tree) : List String := tree.map (·.1)

@[simp] theorem Tree.keys_cons (node : String × List Edge) (tree : Tree) :
    Tree.keys (node :: tree) = node.1 :: tree.keys := rfl

theorem Tree.isSome_edges?_iff {tree : Tree} {key : String} :
    (tree.edges? key).isSome ↔ key ∈ tree.keys := by
  induction tree with
  | nil => simp [Tree.edges?, Tree.keys]
  | cons node rest ih =>
    obtain ⟨k, edges⟩ := node
    rw [Tree.edges?, lookup_cons_if, Tree.keys_cons, List.mem_cons]
    split
    · simp_all
    · rename_i other
      rw [or_iff_right other]
      exact ih

theorem Tree.edges?_eq_none_iff {tree : Tree} {key : String} :
    tree.edges? key = none ↔ key ∉ tree.keys := by
  rw [← Tree.isSome_edges?_iff, Option.not_isSome_iff_eq_none]

theorem Tree.edges?_of_mem {tree : Tree} (nodup : tree.keys.Nodup) {node : String × List Edge}
    (mem : node ∈ tree) : tree.edges? node.1 = some node.2 := by
  induction tree with
  | nil => cases mem
  | cons first rest ih =>
    obtain ⟨k, edges⟩ := first
    rw [Tree.keys_cons, List.nodup_cons] at nodup
    rw [Tree.edges?, lookup_cons_if]
    rcases List.mem_cons.mp mem with rfl | later
    · rw [if_pos rfl]
    · -- the first node has another key, since each key stands once
      have other : node.1 ≠ k := by
        rintro rfl
        exact nodup.1 (List.mem_map.mpr ⟨node, later, rfl⟩)
      rw [if_neg other]
      exact ih nodup.2 later

theorem Tree.keys_put (tree : Tree) (key : String) (edges : List Edge) :
    (tree.put key edges).keys = if key ∈ tree.keys then tree.keys else tree.keys ++ [key] := by
  induction tree with
  | nil => rfl
  | cons node rest ih =>
    obtain ⟨k, old⟩ := node
    rw [Tree.put]
    by_cases here : k = key
    · subst here
      simp
    · rw [if_neg here, Tree.keys_cons, Tree.keys_cons, ih]
      by_cases later : key ∈ Tree.keys rest
      · simp [later]
      · simp [later, Ne.symm here]

theorem Tree.nodup_of_ofEntries {keys : List String} {entries : List (String × Value)}
    {start tree : Tree} (nodup : start.keys.Nodup)
    (h : Tree.ofEntries keys start entries = .ok tree) : tree.keys.Nodup := by
  induction entries generalizing start with
  | nil => cases h; exact nodup
  | cons entry rest ih =>
    obtain ⟨key, data⟩ := entry
    rw [Tree.ofEntries] at h
    split at h
    · cases h
    · obtain ⟨edges, -, h⟩ := bind_eq_ok.mp h
      refine ih ?_ h
      rw [Tree.keys_put]
      exact nodup_putLast nodup

theorem Tree.nodup_of_read {v : Value} {tree : Tree} (h : Tree.read v = .ok tree) :
    tree.keys.Nodup := by
  cases v with
  | map entries =>
    obtain ⟨keyed, -, h⟩ := bind_eq_ok.mp h
    have empty : Tree.keys [] = [] := rfl
    exact Tree.nodup_of_ofEntries (empty ▸ List.nodup_nil) h
  | _ => cases h

/-! ## Flattening by the policies -/

/-- What ends the flattening of a tree by its policies: a cycle, or a node that is not there. -/
inductive Stop where
  | cycle (cycle : Cycle)
  | missing (key : String)
deriving DecidableEq, Repr

/-- The leaves below a list of edges, found by the policies: an edge that is not a sink has to lead to
a node. -/
def Tree.followFrom (tree : Tree) (path : List String) (before : List StageRef) :
    List Edge → Except Stop (List Leaf)
  | [] => .ok []
  | edge :: rest =>
    if edge.policy = .sink then do
      let others ← tree.followFrom path before rest
      return ⟨before ++ edge.steps false, edge.output⟩ :: others
    else
      match _found : tree.edges? edge.output with
      | none => .error (.missing edge.output)
      | some edges =>
        if _seen : edge.output ∈ path then .error (.cycle ⟨path ++ [edge.output]⟩)
        else do
          let below ← tree.followFrom (path ++ [edge.output]) (before ++ edge.steps true) edges
          let others ← tree.followFrom path before rest
          return below ++ others
termination_by edges => (tree.unvisited path, edges.length)
decreasing_by
  · exact Prod.Lex.right _ (Nat.lt_succ_self _)
  · exact Prod.Lex.left _ _ (Tree.unvisited_lt _found _seen)
  · exact Prod.Lex.right _ (Nat.lt_succ_self _)

/-- The leaves below an input, which has to be a node, found by the policies. -/
def Tree.follow (tree : Tree) (identifier : String) : Except Stop (List Leaf) :=
  match tree.edges? identifier with
  | none => .error (.missing identifier)
  | some edges => tree.followFrom [identifier] [] edges

/-- The policies of edges tell the sinks from the nodes. -/
def Tree.Agrees (tree : Tree) (edges : List Edge) : Prop :=
  ∀ edge ∈ edges, edge.policy = .sink ↔ tree.edges? edge.output = none

theorem Tree.followFrom_eq_leavesFrom {tree : Tree}
    (agrees : ∀ key edges, tree.edges? key = some edges → tree.Agrees edges)
    {path : List String} {before : List StageRef} {edges : List Edge} (here : tree.Agrees edges) :
    tree.followFrom path before edges = (tree.leavesFrom path before edges).mapError .cycle := by
  -- the cases are those of flattening by the nodes; the policy of the first edge agrees with each
  induction path, before, edges using Tree.leavesFrom.induct tree with
  | case1 path before =>
    rw [Tree.followFrom, Tree.leavesFrom_nil]
    rfl
  | case2 path before edge rest sink ih =>
    have ends := (here edge List.mem_cons_self).mpr sink
    have ih := ih fun other mem => here other (List.mem_cons_of_mem _ mem)
    rw [Tree.followFrom, if_pos ends, ih, Tree.leavesFrom_sink sink]
    cases tree.leavesFrom path before rest <;> rfl
  | case3 path before edge rest edges found seen =>
    -- the node is there and on the way already: both stop at the same cycle
    have goesOn : edge.policy ≠ .sink := by
      rw [Ne, here edge List.mem_cons_self, found]
      simp
    rw [Tree.followFrom, if_neg goesOn, Tree.leavesFrom_seen found seen]
    split
    · rename_i missing
      rw [found] at missing
      cases missing
    · rw [dif_pos seen]
      rfl
  | case4 path before edge rest edges found fresh ihBelow ihRest =>
    have goesOn : edge.policy ≠ .sink := by
      rw [Ne, here edge List.mem_cons_self, found]
      simp
    have ihBelow := ihBelow (agrees _ _ found)
    have ihRest := ihRest fun other mem => here other (List.mem_cons_of_mem _ mem)
    rw [Tree.followFrom, if_neg goesOn, Tree.leavesFrom_node found fresh]
    split
    · rename_i missing
      rw [found] at missing
      cases missing
    · rename_i edges' found'
      rw [found] at found'
      cases found'
      rw [dif_neg fresh, ihBelow, ihRest]
      cases tree.leavesFrom (path ++ [edge.output]) (before ++ edge.steps true) edges with
      | error cycle => rfl
      | ok below => cases tree.leavesFrom path before rest <;> rfl

theorem Tree.follow_eq_leaves {tree : Tree}
    (agrees : ∀ key edges, tree.edges? key = some edges → tree.Agrees edges) {identifier : String}
    (found : (tree.edges? identifier).isSome) :
    tree.follow identifier = (tree.leaves identifier).mapError .cycle := by
  obtain ⟨edges, found⟩ := Option.isSome_iff_exists.mp found
  rw [Tree.follow, Tree.leaves, found]
  exact Tree.followFrom_eq_leavesFrom agrees (agrees _ _ found)

/-! ## What was read -/

theorem exists_of_read {text : String} {name : Option String} {e : Experiment}
    (h : Experiment.read text name = .ok e) :
    ∃ (v : Value) (identifiers : List String),
      Tree.read v = .ok e.tree ∧ identifiers.mapM Input.read = .ok e.inputs := by
  rw [Experiment.read] at h
  split at h
  · cases h
  · obtain ⟨_, -, h⟩ := bind_eq_ok.mp h
    obtain ⟨v, -, h⟩ := bind_eq_ok.mp h
    obtain ⟨identifiers, -, h⟩ := bind_eq_ok.mp h
    obtain ⟨_, -, h⟩ := bind_eq_ok.mp h
    obtain ⟨tree, readTree, h⟩ := bind_eq_ok.mp h
    obtain ⟨_, -, h⟩ := bind_eq_ok.mp h
    obtain ⟨_, -, h⟩ := bind_eq_ok.mp h
    obtain ⟨inputs, readInputs, h⟩ := bind_eq_ok.mp h
    cases h
    exact ⟨v, identifiers, readTree, readInputs⟩
  · cases h

/-- An experiment that was read is well formed. Each key of its tree has edges, each input is a key
and is spelt by it, and each edge leads to a text without blanks around it, which is a key unless the
edge is a sink. So the leaves below an input are found by the policies as well, no node is missed on
the way, and an edge in reach that leads to a node says whether the node is written. -/
theorem read_describes {text : String} {name : Option String} {e : Experiment}
    (h : Experiment.read text name = .ok e) :
    e.tree.keys.Nodup ∧ (∀ node ∈ e.tree, node.2 ≠ []) ∧
      (∀ input ∈ e.inputs, input.identifier ∈ e.tree.keys ∧ input.Spelt) ∧
      (∀ node ∈ e.tree, ∀ edge ∈ node.2, Trimmed edge.output ∧
        (edge.policy = .sink ↔ edge.output ∉ e.tree.keys)) ∧
      ∀ input ∈ e.inputs,
        e.tree.follow input.identifier = (e.tree.leaves input.identifier).mapError .cycle ∧
        (∀ key, e.tree.follow input.identifier ≠ .error (.missing key)) ∧
        ∀ edge, e.tree.EdgeBelow input.identifier edge → edge.output ∈ e.tree.keys →
          edge.policy = .materialize ∨ edge.policy = .passthrough := by
  have wellFormed := wellFormed_of_read h
  obtain ⟨v, identifiers, readTree, readInputs⟩ := exists_of_read h
  have nodup := Tree.nodup_of_read readTree
  -- no key stands twice, so what is looked up by the key of a node is the node
  have edgesOf {node : String × List Edge} (mem : node ∈ e.tree) :=
    Tree.edges?_of_mem nodup mem
  refine ⟨nodup, fun node mem => wellFormed.edges_ne_nil _ _ (edgesOf mem), ?_, ?_, ?_⟩
  · intro input mem
    obtain ⟨identifier, -, read⟩ := exists_of_mapM_eq_ok readInputs mem
    exact ⟨Tree.isSome_edges?_iff.mp (wellFormed.inputs_mem input mem), Input.spelt_of_read read⟩
  · intro node mem edge inside
    rw [← Tree.edges?_eq_none_iff]
    exact ⟨Tree.read_trimmed readTree _ _ (edgesOf mem) edge inside,
      wellFormed.policy_eq_sink _ _ (edgesOf mem) edge inside⟩
  · intro input mem
    have same := Tree.follow_eq_leaves wellFormed.policy_eq_sink (wellFormed.inputs_mem input mem)
    refine ⟨same, ?_, ?_⟩
    · intro key
      rw [same]
      cases e.tree.leaves input.identifier <;> simp [Except.mapError]
    · -- an edge in reach is an edge of a node, so its policy tells what it leads to
      rintro edge ⟨key, edges, -, found, inside⟩ inner
      have notSink : edge.policy ≠ .sink := by
        rw [Ne, wellFormed.policy_eq_sink _ _ found edge inside, Tree.edges?_eq_none_iff]
        exact fun outside => outside inner
      cases policy : edge.policy with
      | sink => exact absurd policy notSink
      | materialize => exact .inl rfl
      | passthrough => exact .inr rfl

/-- A description with both forms of an edge, a single edge without a list, a key that is not a text,
an output with blanks around it, an input that is captured and one that is plain text. -/
def described : String :=
  "inputs: ['!*.txt', 'http://x']\ntree:\n  '!*.txt': [nullFilter -> 7 , -> side*]\n" ++
    "  7:\n    output: '  out-*  '\n  side*: template -> console\n  http://x: -> shot"

/-- The tree that it describes. -/
def describedTree : Tree :=
  [("!*.txt", [⟨["nullFilter"], "7", .materialize⟩, ⟨[], "side*", .passthrough⟩]),
    ("7", [⟨[], "out-*", .sink⟩]), ("side*", [⟨["template"], "console", .sink⟩]),
    ("http://x", [⟨[], "shot", .sink⟩])]

theorem described_follow :
    ∃ e, Experiment.read described none = .ok e ∧ e.tree = describedTree ∧
      e.inputs = [⟨"!*.txt", .fileText, "*.txt"⟩, ⟨"http://x", .capture, "http://x"⟩] ∧
      e.tree.follow "!*.txt" = (e.tree.leaves "!*.txt").mapError .cycle := by
  have parts : (Experiment.read described none).map (fun e => (e.tree, e.inputs)) =
      .ok (describedTree, [⟨"!*.txt", .fileText, "*.txt"⟩, ⟨"http://x", .capture, "http://x"⟩]) := by
    decide +kernel
  cases ok : Experiment.read described none with
  | error problem => rw [ok] at parts; cases parts
  | ok e =>
    rw [ok] at parts
    simp only [Except.map, Except.ok.injEq, Prod.mk.injEq] at parts
    obtain ⟨tree, inputs⟩ := parts
    have first : (⟨"!*.txt", .fileText, "*.txt"⟩ : Input) ∈ e.inputs := by simp [inputs]
    obtain ⟨-, -, -, -, follows⟩ := read_describes ok
    exact ⟨e, rfl, tree, inputs, (follows _ first).1⟩

end Branchwork.Experiment
