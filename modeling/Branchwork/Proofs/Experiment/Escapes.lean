import Branchwork.Proofs.Experiment.WellFormed
import Branchwork.Proofs.Yaml.Tokens

/-!
# What reading a description fails with

The reader of descriptions has one kind of refusal, `ParseError`. Two things come out of it besides an
experiment and a refusal: a problem of the YAML text that is not one of its format, and a key or a name
that is a number with more digits than can be written. `Escapes` says when that happens.

Main results:

* `read_escapes_iff` — what reading a description fails with other than a refusal, and when.
* `read_gives_or_refuses` — reading gives an experiment or a refusal unless something escapes.
-/

namespace Branchwork.Experiment

open Yaml (Node)

/-- A problem is a refusal of the description. -/
def Problem.IsRefusal (problem : Problem) : Prop := problem.kind = "ParseError"

/-! ## Refusals -/

/-- A reader fails with refusals only. -/
def Refuses {α : Type} (result : Except Problem α) : Prop :=
  ∀ problem, result = .error problem → problem.IsRefusal

theorem refuses_ok {α : Type} (x : α) : Refuses (.ok x) := failsWith_ok x

theorem refuses_error {α : Type} {problem : Problem} (h : problem.IsRefusal) :
    Refuses (.error problem : Except Problem α) := failsWith_error h

theorem Refuses.bind {α β : Type} {x : Except Problem α} {f : α → Except Problem β}
    (first : Refuses x) (rest : ∀ a, x = .ok a → Refuses (f a)) : Refuses (x >>= f) :=
  FailsWith.bind first rest

theorem refuses_mapM {α β : Type} {f : α → Except Problem β} (each : ∀ a, Refuses (f a))
    (xs : List α) : Refuses (xs.mapM f) := failsWith_mapM each xs

theorem refuses_forM {α : Type} {f : α → Except Problem Unit} (each : ∀ a, Refuses (f a))
    (xs : List α) : Refuses (xs.forM f) := failsWith_forM each xs

theorem elim_eq_ok {α : Type} {x : Option α} {problem : Problem} {a : α} :
    x.elim (.error problem) .ok = (.ok a : Except Problem α) ↔ x = some a := by
  cases x <;> simp

theorem refuses_elim {α : Type} (x : Option α) (problem : Problem) (h : problem.IsRefusal) :
    Refuses (x.elim (.error problem) .ok) := by
  cases x with
  | none => exact refuses_error h
  | some a => exact refuses_ok _

theorem refuses_readOutput (place : String) (data : Mapping) : Refuses (readOutput place data) := by
  unfold readOutput
  split
  · split
    · exact refuses_error rfl
    · exact refuses_ok _
  · exact refuses_error rfl

theorem refuses_readStages (place : String) (data : Mapping) : Refuses (readStages place data) := by
  unfold readStages
  split
  · exact refuses_ok _
  · exact refuses_ok _
  · exact refuses_elim _ _ rfl
  · exact refuses_error rfl

theorem refuses_readMaterialize (place : String) (data : Mapping) :
    Refuses (readMaterialize place data) := by
  unfold readMaterialize
  split
  · exact refuses_ok _
  · exact refuses_ok _
  · exact refuses_ok _
  · exact refuses_error rfl

theorem refuses_edge (keys : List String) (place : String) (v : Value) :
    Refuses (Edge.read keys place v) := by
  have ofMapping (data : Mapping) : Refuses (Edge.ofMapping keys place data) :=
    (refuses_readOutput place data).bind fun _ _ => (refuses_readStages place data).bind fun _ _ =>
      (refuses_readMaterialize place data).bind fun _ _ => refuses_ok _
  unfold Edge.read
  split
  · split
    · exact ofMapping _
    · exact refuses_error rfl
  · exact ofMapping _
  · exact refuses_error rfl

theorem refuses_readEdges (keys : List String) (node : String) (i : Nat) (data : List Value) :
    Refuses (readEdges keys node i data) := by
  induction data generalizing i with
  | nil => exact refuses_ok []
  | cons v data ih =>
    rw [readEdges]
    exact (refuses_edge keys _ v).bind fun _ _ => (ih (i + 1)).bind fun _ _ => refuses_ok _

theorem refuses_ofEntries (keys : List String) (entries : List (String × Value)) (tree : Tree) :
    Refuses (Tree.ofEntries keys tree entries) := by
  induction entries generalizing tree with
  | nil => exact refuses_ok tree
  | cons entry rest ih =>
    obtain ⟨key, data⟩ := entry
    rw [Tree.ofEntries]
    split
    · exact refuses_error rfl
    · exact (refuses_readEdges keys key 0 _).bind fun _ _ => ih _

theorem refuses_input (identifier : String) : Refuses (Input.read identifier) := by
  unfold Input.read
  dsimp only
  split
  · exact refuses_error rfl
  · split
    · exact refuses_error rfl
    · exact refuses_ok _

theorem refuses_requireEdges (tree : Tree) (identifier : String) :
    Refuses (requireEdges tree identifier) := by
  unfold requireEdges
  split
  · exact refuses_ok ()
  · exact refuses_error rfl

theorem refuses_readIdentifiers (v : Value) : Refuses (readIdentifiers v) := by
  unfold readIdentifiers
  split
  · exact refuses_ok _
  · exact refuses_elim _ _ rfl
  · exact refuses_error rfl

theorem refuses_readFlags (written : Option Value) : Refuses (readFlags written) := by
  unfold readFlags
  split
  · exact refuses_ok _
  · exact refuses_ok _
  · split
    · exact refuses_error rfl
    · exact refuses_ok _

/-! ## Keys and names that are too long -/

theorem keyed_eq_ok {entry : Value × Value} {keyed' : String × Value} :
    keyed entry = .ok keyed' ↔ entry.1.isOverlong = false ∧ (entry.1.plain, entry.2) = keyed' := by
  rw [keyed, Value.plain?]
  cases entry.1.isOverlong <;> simp

theorem keyed_eq_error {entry : Value × Value} {problem : Problem} :
    keyed entry = .error problem ↔ .overlong = problem ∧ entry.1.isOverlong = true := by
  rw [keyed, Value.plain?]
  cases entry.1.isOverlong <;> simp

/-- The keys of a tree become texts unless one of them is too long. -/
theorem mapM_keyed_eq_error {entries : Mapping} {problem : Problem} :
    entries.mapM keyed = .error problem ↔
      .overlong = problem ∧ ∃ entry ∈ entries, entry.1.isOverlong = true := by
  induction entries with
  | nil => exact ⟨fun h => (nomatch h), fun ⟨_, _, mem, _⟩ => (nomatch mem)⟩
  | cons entry rest ih =>
    rw [List.mapM_cons, bind_eq_error, keyed_eq_error]
    constructor
    · rintro (⟨same, long⟩ | ⟨_, -, h⟩)
      · exact ⟨same, entry, List.mem_cons_self, long⟩
      · obtain h | ⟨_, -, h⟩ := bind_eq_error.mp h
        · obtain ⟨same, other, mem, long⟩ := ih.mp h
          exact ⟨same, other, List.mem_cons_of_mem _ mem, long⟩
        · cases h
    · rintro ⟨same, other, mem, long⟩
      -- the first key that is too long may be this one or come behind it
      cases here : entry.1.isOverlong with
      | true => exact .inl ⟨same, rfl⟩
      | false =>
        have behind : other ∈ rest := (List.mem_cons.mp mem).resolve_left fun first => by
          rw [← first, long] at here
          cases here
        exact .inr ⟨_, keyed_eq_ok.mpr ⟨here, rfl⟩,
          bind_eq_error.mpr (.inl (ih.mpr ⟨same, other, behind, long⟩))⟩

/-- The name is turned into a text unless it is too long. -/
theorem nameOf_eq_error {written : Option Value} {given : Option String} {problem : Problem} :
    nameOf written given = .error problem ↔
      .overlong = problem ∧ ∃ v, written = some v ∧ v.isTruthy = true ∧ v.isOverlong = true := by
  rw [nameOf]
  cases written with
  | none => simp
  | some v =>
    simp only [Option.filter_some, Option.some.injEq, exists_eq_left']
    cases v.isTruthy with
    | false => simp
    | true =>
      simp only [if_true, Value.plain?]
      cases v.isOverlong <;> simp

/-- The inputs and the flags of a description can be read, and its tree has the given entries. -/
structure Opens (data : Mapping) (identifiers : List String) (entries : Mapping) : Prop where
  inputs : ∃ v, Mapping.find? data "inputs" = some v ∧ readIdentifiers v = .ok identifiers
  flags : ∃ flags, readFlags (Mapping.find? data "flags") = .ok flags
  tree : Mapping.find? data "tree" = some (.map entries)

/-- A key of the tree of a description is too long. -/
def LongKey (data : Mapping) : Prop :=
  ∃ identifiers entries, Opens data identifiers entries ∧
    ∃ entry ∈ entries, entry.1.isOverlong = true

/-- The tree of a description can be read and has all of its inputs, but its name is too long. -/
def LongName (data : Mapping) : Prop :=
  ∃ identifiers entries, Opens data identifiers entries ∧
    (∃ tree, Tree.read (.map entries) = .ok tree ∧
      ∀ identifier ∈ identifiers, (tree.edges? identifier).isSome) ∧
    ∃ v, Mapping.find? data "name" = some v ∧ v.isTruthy = true ∧ v.isOverlong = true

theorem exists_entries {v : Value} {tree : Tree} (h : Tree.read v = .ok tree) :
    ∃ entries, v = .map entries := by
  cases v with
  | map entries => exact ⟨entries, rfl⟩
  | _ => cases h

/-- Reading an experiment from its entries fails with refusals, unless a key or the name is too
long. -/
theorem ofMapping_eq_error {name : Option String} {data : Mapping} {problem : Problem}
    (h : ofMapping name data = .error problem) :
    problem.IsRefusal ∨ .overlong = problem ∧ (LongKey data ∨ LongName data) := by
  rcases bind_eq_error.mp h with h | ⟨inputs, hasInputs, h⟩
  · exact .inl (refuses_elim _ .noInputs rfl _ h)
  rcases bind_eq_error.mp h with h | ⟨tree, hasTree, h⟩
  · exact .inl (refuses_elim _ .noTree rfl _ h)
  rcases bind_eq_error.mp h with h | ⟨identifiers, readInputs, h⟩
  · exact .inl (refuses_readIdentifiers _ _ h)
  rcases bind_eq_error.mp h with h | ⟨flags, readFlags, h⟩
  · exact .inl (refuses_readFlags _ _ h)
  -- from here on the description opens
  rw [elim_eq_ok] at hasInputs hasTree
  rcases bind_eq_error.mp h with h | ⟨tree, readTree, h⟩
  · -- the keys become texts before any edge is read
    cases tree with
    | map entries =>
      have opens : Opens data identifiers entries :=
        ⟨⟨inputs, hasInputs, readInputs⟩, ⟨flags, readFlags⟩, hasTree⟩
      rcases bind_eq_error.mp h with h | ⟨keyed', -, h⟩
      · obtain ⟨same, long⟩ := mapM_keyed_eq_error.mp h
        exact .inr ⟨same, .inl ⟨identifiers, entries, opens, long⟩⟩
      · exact .inl (refuses_ofEntries _ _ _ _ h)
    | _ => cases h; exact .inl rfl
  rcases bind_eq_error.mp h with h | ⟨_, inTree, h⟩
  · exact .inl (refuses_forM (refuses_requireEdges tree) _ _ h)
  rcases bind_eq_error.mp h with h | ⟨_, -, h⟩
  · -- the name becomes a text when the tree has been read
    obtain ⟨same, long⟩ := nameOf_eq_error.mp h
    obtain ⟨entries, rfl⟩ := exists_entries readTree
    have opens : Opens data identifiers entries :=
      ⟨⟨inputs, hasInputs, readInputs⟩, ⟨flags, readFlags⟩, hasTree⟩
    have inside := fun identifier mem => requireEdges_eq_ok.mp (forM_eq_ok.mp inTree identifier mem)
    exact .inr ⟨same, .inr ⟨identifiers, entries, opens, ⟨tree, readTree, inside⟩, long⟩⟩
  rcases bind_eq_error.mp h with h | ⟨_, -, h⟩
  · exact .inl (refuses_mapM refuses_input _ _ h)
  · cases h

theorem ofMapping_of_opens {data : Mapping} {identifiers : List String} {entries : Mapping}
    (opens : Opens data identifiers entries) (name : Option String) :
    ofMapping name data = do
      let flags ← readFlags (Mapping.find? data "flags")
      let tree ← Tree.read (.map entries)
      identifiers.forM (requireEdges tree)
      let name ← nameOf (Mapping.find? data "name") name
      let inputs ← identifiers.mapM Input.read
      return { name, inputs, tree, flags } := by
  obtain ⟨⟨inputs, hasInputs, readInputs⟩, -, hasTree⟩ := opens
  rw [ofMapping, hasInputs, hasTree]
  show (readIdentifiers inputs >>= fun identifiers => _) = _
  rw [readInputs]
  rfl

theorem ofMapping_of_longKey {data : Mapping} (h : LongKey data) (name : Option String) :
    ofMapping name data = .error .overlong := by
  obtain ⟨identifiers, entries, opens, long⟩ := h
  obtain ⟨flags, readFlags⟩ := opens.flags
  -- the tree is the first to be read behind the flags
  rw [ofMapping_of_opens opens]
  have keys : Tree.read (.map entries) = .error .overlong :=
    bind_eq_error.mpr (.inl (mapM_keyed_eq_error.mpr ⟨rfl, long⟩))
  exact bind_eq_error.mpr (.inr ⟨flags, readFlags, bind_eq_error.mpr (.inl keys)⟩)

theorem ofMapping_of_longName {data : Mapping} (h : LongName data) (name : Option String) :
    ofMapping name data = .error .overlong := by
  obtain ⟨identifiers, entries, opens, ⟨tree, readTree, inside⟩, long⟩ := h
  obtain ⟨flags, readFlags⟩ := opens.flags
  rw [ofMapping_of_opens opens]
  have inTree : identifiers.forM (requireEdges tree) = .ok () :=
    forM_eq_ok.mpr fun identifier mem => requireEdges_eq_ok.mpr (inside identifier mem)
  refine bind_eq_error.mpr (.inr ⟨flags, readFlags, ?_⟩)
  refine bind_eq_error.mpr (.inr ⟨tree, readTree, bind_eq_error.mpr (.inr ⟨(), inTree, ?_⟩)⟩)
  exact bind_eq_error.mpr (.inl (nameOf_eq_error.mpr ⟨rfl, long⟩))

/-! ## The text of a description -/

theorem isRefusal_ofYaml (problem : Yaml.Problem) :
    (Problem.ofYaml problem).IsRefusal ↔ problem.IsMalformed := by
  cases problem with
  | malformed part => exact ⟨fun _ => ⟨part, rfl⟩, fun _ => rfl⟩
  | charCode code =>
    simp only [Problem.IsRefusal, Problem.ofYaml, Problem.kind, Yaml.Problem.kind,
      Yaml.Problem.IsMalformed]
    split <;> simp
  | _ => simp [Problem.IsRefusal, Problem.ofYaml, Problem.kind, Yaml.Problem.kind,
      Yaml.Problem.IsMalformed]

theorem ofYaml_eq {problem : Yaml.Problem} (h : ¬ problem.IsMalformed) :
    Problem.ofYaml problem = .badScalar problem := by
  cases problem with
  | malformed part => exact absurd ⟨part, rfl⟩ h
  | _ => rfl

/-- What reading a description fails with other than a refusal. -/
inductive Escapes (text : String) : Problem → Prop
  /-- The text cannot be cut into tokens up to where the parser stops. -/
  | token {tokens problem} : Yaml.tokenize text = .ok tokens →
      Node.ofTokens? tokens = .error problem → .unreadable problem ∈ tokens →
      problem.IsTextual → ¬ problem.IsMalformed → Escapes text (.badScalar problem)
  /-- The least deep of the problems of its document lies in a scalar. -/
  | scalar {tokens node depth problem inner} : Yaml.tokenize text = .ok tokens →
      Node.ofTokens? tokens = .ok (some node) →
      Yaml.leastDeep ((node.merge false).problems 0) = some (depth, problem) →
      (node.merge false).Holds inner → inner.Unreadable problem → ¬ problem.IsMalformed →
      Escapes text (.badScalar problem)
  | key {data} : Yaml.load text = .ok (.map data) → LongKey data → Escapes text .overlong
  | name {data} : Yaml.load text = .ok (.map data) → LongName data → Escapes text .overlong

/-- What reading a description fails with other than a refusal, and when. -/
theorem read_escapes_iff (text : String) (name : Option String) (problem : Problem) :
    read text name = .error problem ∧ ¬ problem.IsRefusal ↔ Escapes text problem := by
  unfold read
  constructor
  · rintro ⟨h, escapes⟩
    cases loaded : Yaml.load text with
    | error problem' =>
      -- the text is not cut, its tokens make no node, or the node has no value
      rw [loaded] at h
      cases h
      rw [isRefusal_ofYaml] at escapes
      rw [ofYaml_eq escapes]
      rcases Yaml.load_eq_error.mp loaded with uncut | ⟨tokens, cut, stuck | ⟨node, depth, parsed, counts⟩⟩
      · exact absurd (Yaml.malformed_of_tokenize uncut) escapes
      · have mem := (Yaml.malformed_or_mem_of_ofTokens? stuck).resolve_left escapes
        exact .token cut stuck mem (Yaml.textual_of_mem_tokenize cut mem) escapes
      · obtain ⟨inner, holds, unreadable⟩ :=
          Yaml.exists_unreadable (List.argmin_mem counts) escapes
        exact .scalar cut parsed counts holds unreadable escapes
    | ok v =>
      rw [loaded] at h
      cases v with
      | map data =>
        -- only a key or the name can be too long then
        obtain ⟨rfl, long | long⟩ := (ofMapping_eq_error h).resolve_left escapes
        · exact .key loaded long
        · exact .name loaded long
      | _ => cases h; exact absurd rfl escapes
  · -- each reason to fail that is no refusal shows where the reading stops
    intro h
    cases h with
    | @token tokens problem cut stuck mem textual escapes =>
      have loaded : Yaml.load text = .error problem :=
        Yaml.load_eq_error.mpr (.inr ⟨tokens, cut, .inl stuck⟩)
      rw [loaded, ← ofYaml_eq escapes, isRefusal_ofYaml]
      exact ⟨rfl, escapes⟩
    | @scalar tokens node depth problem inner cut parsed counts holds unreadable escapes =>
      have loaded : Yaml.load text = .error problem :=
        Yaml.load_eq_error.mpr (.inr ⟨tokens, cut, .inr ⟨node, depth, parsed, counts⟩⟩)
      rw [loaded, ← ofYaml_eq escapes, isRefusal_ofYaml]
      exact ⟨rfl, escapes⟩
    | key loaded long =>
      rw [loaded]
      exact ⟨ofMapping_of_longKey long name, by simp [Problem.IsRefusal, Problem.kind]⟩
    | name loaded long =>
      rw [loaded]
      exact ⟨ofMapping_of_longName long name, by simp [Problem.IsRefusal, Problem.kind]⟩

/-- Reading a description gives an experiment or a refusal, unless something escapes; and what escapes
is what reading fails with. -/
theorem read_gives_or_refuses (text : String) (name : Option String) :
    (((∃ e, read text name = .ok e) ∨ ∃ problem, read text name = .error problem ∧
        problem.kind = "ParseError") ↔ ¬ ∃ problem, Escapes text problem) ∧
      ∀ problem, Escapes text problem ↔
        read text name = .error problem ∧ problem.kind ≠ "ParseError" := by
  refine ⟨?_, fun problem => (read_escapes_iff text name problem).symm⟩
  simp only [← read_escapes_iff text name]
  cases read text name with
  | ok e => simp
  | error problem => simp [Problem.IsRefusal]

/-- A date that the calendar does not have is no refusal. -/
example : faultOf (read "inputs: []\ntree: {}\nflags: {d: 2024-13-45}" none) =
    some (.badScalar (.badCalendar "month must be in 1..12")) := by
  decide +kernel

end Branchwork.Experiment
