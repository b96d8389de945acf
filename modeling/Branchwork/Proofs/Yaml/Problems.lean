import Branchwork.Proofs.Result
import Branchwork.Yaml.Load
import Mathlib.Data.List.MinMax

/-!
# Which problem of a document counts

A document may hold several nodes that cannot be given a value. `Node.problems` lists what is wrong
with each of them, in the order of the text and with its depth. What the value of a node fails with is
the least deep of them, and of several at one depth the first.

A malformed text has problems of one kind. Every other problem of a node lies in a scalar: its tag says
that it is a number, a boolean, a date or a moment, and its text does not.

Main results:

* `faultOf_value` — the value of a node fails with the problem that counts.
* `exists_unreadable` — a problem other than that of a malformed text lies in a scalar.
* `load_eq_error` — how a text cannot be loaded.
-/

namespace Branchwork.Yaml

/-- The text breaks the rules of the format. -/
def Problem.IsMalformed (problem : Problem) : Prop := ∃ part, problem = .malformed part

/-! ## The problem that counts -/

/-- The least deep of several problems, the first one of those at that depth. -/
def leastDeep (found : List (Nat × Problem)) : Option (Nat × Problem) := found.argmin (·.1)

/-- The one of two problems that counts. -/
def lessDeep : Option (Nat × Problem) → Option (Nat × Problem) → Option (Nat × Problem)
  | some p, some q => some (if q.1 < p.1 then q else p)
  | some p, none => some p
  | none, q => q

theorem leastDeep_cons (p : Nat × Problem) (found : List (Nat × Problem)) :
    leastDeep (p :: found) = lessDeep (some p) (leastDeep found) := by
  rw [leastDeep, List.argmin_cons, ← leastDeep]
  cases leastDeep found with
  | none => rfl
  | some q =>
    show (if q.1 < p.1 then some q else some p) = some (if q.1 < p.1 then q else p)
    split <;> rfl

theorem lessDeep_assoc (p q r : Option (Nat × Problem)) :
    lessDeep (lessDeep p q) r = lessDeep p (lessDeep q r) := by
  rcases p with _ | p <;> rcases q with _ | q <;> rcases r with _ | r <;> try rfl
  simp only [lessDeep, Option.some.injEq]
  -- three depths are compared two by two
  grind

/-- Of two lists the problem that counts is one of the two that count there. -/
theorem leastDeep_append (xs ys : List (Nat × Problem)) :
    leastDeep (xs ++ ys) = lessDeep (leastDeep xs) (leastDeep ys) := by
  induction xs with
  | nil => rfl
  | cons x xs ih => rw [List.cons_append, leastDeep_cons, leastDeep_cons, ih, lessDeep_assoc]

@[simp] theorem leastDeep_toList (p : Option (Nat × Problem)) : leastDeep p.toList = p := by
  cases p <;> rfl

theorem faultOf_both {α β : Type} (x : Outcome α) (y : Outcome β) :
    faultOf (x.both y) = lessDeep (faultOf x) (faultOf y) := by
  cases x <;> cases y <;> rfl

@[simp] theorem faultOf_map {ε α β : Type} (f : α → β) (x : Except ε α) :
    faultOf (x.map f) = faultOf x := by
  cases x <;> rfl

/-! ## The problems of a node -/

mutual

/-- What is wrong with a node at a depth, and with the nodes in it. -/
def Node.problems (depth : Nat) : Node → List (Nat × Problem)
  | .scalar tag text =>
    match tag with
    | .sequence | .mapping | .set | .pairs => [(depth + 1, .malformed .tag)]
    | tag => (faultOf ((Node.scalar tag text).scalarValue depth)).toList
  | .sequence tag items =>
    match tag with
    | .sequence => itemProblems (depth + 1) items
    | .pairs => pairProblems (depth + 1) items
    | .mapping | .set => [(depth + 1, .malformed .tag)]
    | _ => [(depth, .malformed .tag)]
  | .mapping tag entries =>
    match tag with
    | .mapping | .set => entryProblems (depth + 1) entries
    | .sequence | .pairs => [(depth + 1, .malformed .tag)]
    | .unmergeable => [(depth + 1, .malformed .merge)]
    | tag => (faultOf ((Node.mapping tag entries).scalarValue depth)).toList

/-- What is wrong with the members of a sequence. -/
def itemProblems (depth : Nat) : List Node → List (Nat × Problem)
  | [] => []
  | node :: rest => node.problems depth ++ itemProblems depth rest

/-- What is wrong with the members of a sequence of pairs. -/
def pairProblems (depth : Nat) : List Node → List (Nat × Problem)
  | [] => []
  | .mapping _ [(key, value)] :: rest =>
    key.problems depth ++ value.problems depth ++ pairProblems depth rest
  | _ :: _ => [(depth, .malformed .tag)]

/-- What is wrong with the entries of a mapping. -/
def entryProblems (depth : Nat) : List (Node × Node) → List (Nat × Problem)
  | [] => []
  | (key, value) :: rest =>
    (if key.isCollection then [(depth, .malformed .key)] else key.problems depth) ++
      value.problems depth ++ entryProblems depth rest

end

mutual

/-- The value of a node fails with the problem that counts. -/
theorem faultOf_value (depth : Nat) (node : Node) :
    faultOf (node.value depth) = leastDeep (node.problems depth) := by
  cases node with
  | scalar tag text =>
    cases tag <;> simp only [Node.value, Node.problems, leastDeep_toList] <;> rfl
  | sequence tag items =>
    cases tag with
    | sequence => simp only [Node.value, Node.problems, faultOf_map, faultOf_itemValues]
    | pairs => simp only [Node.value, Node.problems, faultOf_map, faultOf_pairValues]
    | _ => rfl
  | mapping tag entries =>
    cases tag with
    | mapping => simp only [Node.value, Node.problems, faultOf_map, faultOf_entryValues]
    | set => simp only [Node.value, Node.problems, faultOf_map, faultOf_entryValues]
    | _ => simp only [Node.value, Node.problems, leastDeep_toList] <;> rfl

theorem faultOf_itemValues (depth : Nat) (items : List Node) :
    faultOf (itemValues depth items) = leastDeep (itemProblems depth items) := by
  cases items with
  | nil => rfl
  | cons node rest =>
    rw [itemValues, itemProblems, faultOf_map, faultOf_both, leastDeep_append,
      faultOf_value depth node, faultOf_itemValues depth rest]

theorem faultOf_pairValues (depth : Nat) (items : List Node) :
    faultOf (pairValues depth items) = leastDeep (pairProblems depth items) := by
  match items with
  | [] => rfl
  | .mapping _ [(key, value)] :: rest =>
    rw [pairValues, pairProblems, faultOf_map, faultOf_both, faultOf_both, leastDeep_append,
      leastDeep_append, faultOf_value depth key, faultOf_value depth value,
      faultOf_pairValues depth rest]
  | .scalar _ _ :: _ | .sequence _ _ :: _ | .mapping _ [] :: _ | .mapping _ (_ :: _ :: _) :: _ => rfl

theorem faultOf_entryValues (depth : Nat) (entries : List (Node × Node)) :
    faultOf (entryValues depth entries) = leastDeep (entryProblems depth entries) := by
  match entries with
  | [] => rfl
  | (key, value) :: rest =>
    rw [entryValues, entryProblems, faultOf_map, faultOf_both, faultOf_both, leastDeep_append,
      leastDeep_append, faultOf_value depth value, faultOf_entryValues depth rest]
    congr 2
    -- a collection is refused as a key before it is looked into
    split
    · rfl
    · exact faultOf_value depth key

end

/-- How a text cannot be loaded: it is not cut into tokens, they make no node, or the node is given no
value. -/
theorem load_eq_error {text : String} {problem : Problem} :
    load text = .error problem ↔ tokenize text = .error problem ∨
      ∃ tokens, tokenize text = .ok tokens ∧ (Node.ofTokens? tokens = .error problem ∨
        ∃ node depth, Node.ofTokens? tokens = .ok (some node) ∧
          leastDeep ((node.merge false).problems 0) = some (depth, problem)) := by
  rw [load, bind_eq_error]
  refine or_congr_right (exists_congr fun tokens => and_congr_right fun _ => ?_)
  rw [bind_eq_error]
  refine or_congr_right ⟨?_, ?_⟩
  -- an empty document has a value, and any other fails with the problem that counts
  · rintro ⟨found, parsed, h⟩
    cases found with
    | none => cases h
    | some node =>
      obtain ⟨⟨depth, _⟩, failed, rfl⟩ := mapError_eq_error.mp h
      exact ⟨node, depth, parsed, by rw [← faultOf_value, faultOf_eq_some.mpr failed]⟩
  · rintro ⟨node, depth, parsed, counts⟩
    rw [← faultOf_value, faultOf_eq_some] at counts
    exact ⟨some node, parsed, mapError_eq_error.mpr ⟨_, counts, rfl⟩⟩

/-! ## Where problems come from -/

/-- A node is another one or lies in it. -/
inductive Node.Holds : Node → Node → Prop
  | here {node} : Holds node node
  | item {tag items node inner} : node ∈ items → Holds node inner →
      Holds (.sequence tag items) inner
  | key {tag entries key value inner} : (key, value) ∈ entries → Holds key inner →
      Holds (.mapping tag entries) inner
  | value {tag entries key value inner} : (key, value) ∈ entries → Holds value inner →
      Holds (.mapping tag entries) inner

/-- The tags of numbers, booleans, dates and moments. -/
def Tag.IsForm (tag : Tag) : Prop := tag = .bool ∨ tag = .int ∨ tag = .float ∨ tag = .moment

/-- A scalar, or a mapping that stands for one, is given no value because its text does not have the
form that its tag asks for. -/
inductive Node.Unreadable : Node → Problem → Prop
  | scalar {tag text problem} : tag.IsForm → Scalar.value tag text = .error problem →
      Unreadable (.scalar tag text) problem
  | standIn {tag entries text problem} : tag.IsForm → tag ≠ .moment →
      entryText? entries = some text → Scalar.value tag text = .error problem →
      Unreadable (.mapping tag entries) problem
  | moment {entries text} : entryText? entries = some text →
      Unreadable (.mapping .moment entries) .momentOfMapping

theorem binary_malformed {text : String} {problem : Problem}
    (h : Scalar.binary text = .error problem) : problem.IsMalformed := by
  unfold Scalar.binary at h
  split at h
  · split at h <;> cases h
    exact ⟨_, rfl⟩
  · cases h
    exact ⟨_, rfl⟩

/-- The value of a scalar with another tag fails only where it is malformed. -/
theorem isForm_or_malformed {tag : Tag} {text : String} {problem : Problem}
    (h : Scalar.value tag text = .error problem) : tag.IsForm ∨ problem.IsMalformed := by
  cases tag with
  | bool => exact .inl (.inl rfl)
  | int => exact .inl (.inr (.inl rfl))
  | float => exact .inl (.inr (.inr (.inl rfl)))
  | moment => exact .inl (.inr (.inr (.inr rfl)))
  | null | text => cases h
  | binary => exact .inr (binary_malformed h)
  | _ => cases h; exact .inr ⟨_, rfl⟩

theorem scalarValue_scalar (depth : Nat) (tag : Tag) (text : String) :
    (Node.scalar tag text).scalarValue depth =
      (Scalar.value tag text).mapError fun problem => (depth, problem) := by
  cases tag <;> rfl

theorem scalarValue_mapping {tag : Tag} (notMoment : tag ≠ .moment) {entries : List (Node × Node)}
    {text : String} (found : entryText? entries = some text) (depth : Nat) :
    (Node.mapping tag entries).scalarValue depth =
      (Scalar.value tag text).mapError fun problem => (depth, problem) := by
  cases tag <;>
    simp only [Node.scalarValue, Node.tag, Node.scalarText?, found] <;> first | rfl | exact absurd rfl notMoment

theorem unreadable_of_scalar {depth d : Nat} {tag : Tag} {text : String} {problem : Problem}
    (h : (Node.scalar tag text).scalarValue depth = .error (d, problem))
    (escapes : ¬ problem.IsMalformed) : (Node.scalar tag text).Unreadable problem := by
  rw [scalarValue_scalar, mapError_eq_error] at h
  obtain ⟨_, read, same⟩ := h
  cases same
  exact .scalar ((isForm_or_malformed read).resolve_right escapes) read

theorem unreadable_of_mapping {depth d : Nat} {tag : Tag} {entries : List (Node × Node)}
    {problem : Problem} (h : (Node.mapping tag entries).scalarValue depth = .error (d, problem))
    (escapes : ¬ problem.IsMalformed) : (Node.mapping tag entries).Unreadable problem := by
  cases found : entryText? entries with
  | none =>
    -- nothing says for which scalar the mapping stands
    refine absurd ⟨Part.tag, ?_⟩ escapes
    cases tag <;> simp only [Node.scalarValue, Node.tag, Node.scalarText?, found] at h <;>
      cases h <;> rfl
  | some text =>
    by_cases moment : tag = .moment
    · subst moment
      simp only [Node.scalarValue, Node.tag, Node.scalarText?, found] at h
      cases h
      exact .moment found
    · rw [scalarValue_mapping moment found, mapError_eq_error] at h
      obtain ⟨_, read, same⟩ := h
      cases same
      exact .standIn ((isForm_or_malformed read).resolve_right escapes) moment found read

theorem malformed_of_mem {d depth : Nat} {part : Part} {problem : Problem}
    (mem : (d, problem) ∈ [(depth, Problem.malformed part)]) : problem.IsMalformed := by
  cases List.mem_singleton.mp mem
  exact ⟨part, rfl⟩

theorem mem_toList_faultOf {ε α : Type} {x : Except ε α} {e : ε} :
    e ∈ (faultOf x).toList ↔ x = .error e := by
  rw [Option.mem_toList, faultOf_eq_some]

mutual

/-- A problem other than that of a malformed text lies in a scalar. -/
theorem exists_unreadable {depth d : Nat} {node : Node} {problem : Problem}
    (mem : (d, problem) ∈ node.problems depth) (escapes : ¬ problem.IsMalformed) :
    ∃ inner, node.Holds inner ∧ inner.Unreadable problem := by
  cases node with
  | scalar tag text =>
    -- a scalar that is tagged as a collection is malformed, any other one fails itself
    refine ⟨_, .here, ?_⟩
    cases tag <;> simp only [Node.problems] at mem <;>
      first
      | exact absurd (malformed_of_mem mem) escapes
      | exact unreadable_of_scalar (mem_toList_faultOf.mp mem) escapes
  | sequence tag items =>
    cases tag with
    | sequence =>
      obtain ⟨node, inside, inner, holds, unreadable⟩ := exists_unreadable_item mem escapes
      exact ⟨inner, .item inside holds, unreadable⟩
    | pairs =>
      obtain ⟨node, inside, inner, holds, unreadable⟩ := exists_unreadable_pair mem escapes
      exact ⟨inner, .item inside holds, unreadable⟩
    | _ => exact absurd (malformed_of_mem mem) escapes
  | mapping tag entries =>
    cases tag with
    | mapping | set =>
      obtain ⟨⟨key, value⟩, inside, inner, holds, unreadable⟩ := exists_unreadable_entry mem escapes
      exact ⟨inner, holds.elim (.key inside) (.value inside), unreadable⟩
    | sequence | pairs | unmergeable => exact absurd (malformed_of_mem mem) escapes
    | _ => exact ⟨_, .here, unreadable_of_mapping (mem_toList_faultOf.mp mem) escapes⟩

theorem exists_unreadable_item {depth d : Nat} {items : List Node} {problem : Problem}
    (mem : (d, problem) ∈ itemProblems depth items) (escapes : ¬ problem.IsMalformed) :
    ∃ node ∈ items, ∃ inner, node.Holds inner ∧ inner.Unreadable problem := by
  cases items with
  | nil => cases mem
  | cons node rest =>
    rw [itemProblems, List.mem_append] at mem
    rcases mem with mem | mem
    · exact ⟨node, List.mem_cons_self, exists_unreadable mem escapes⟩
    · obtain ⟨other, inside, found⟩ := exists_unreadable_item mem escapes
      exact ⟨other, List.mem_cons_of_mem _ inside, found⟩

theorem exists_unreadable_pair {depth d : Nat} {items : List Node} {problem : Problem}
    (mem : (d, problem) ∈ pairProblems depth items) (escapes : ¬ problem.IsMalformed) :
    ∃ node ∈ items, ∃ inner, node.Holds inner ∧ inner.Unreadable problem := by
  match items with
  | [] => cases mem
  | .mapping tag [(key, value)] :: rest =>
    rw [pairProblems, List.mem_append, List.mem_append] at mem
    rcases mem with (mem | mem) | mem
    · obtain ⟨inner, holds, unreadable⟩ := exists_unreadable mem escapes
      exact ⟨_, List.mem_cons_self, inner, .key (List.mem_singleton.mpr rfl) holds, unreadable⟩
    · obtain ⟨inner, holds, unreadable⟩ := exists_unreadable mem escapes
      exact ⟨_, List.mem_cons_self, inner, .value (List.mem_singleton.mpr rfl) holds, unreadable⟩
    · obtain ⟨other, inside, found⟩ := exists_unreadable_pair mem escapes
      exact ⟨other, List.mem_cons_of_mem _ inside, found⟩
  | .scalar _ _ :: _ | .sequence _ _ :: _ | .mapping _ [] :: _ | .mapping _ (_ :: _ :: _) :: _ =>
    exact absurd (malformed_of_mem mem) escapes

theorem exists_unreadable_entry {depth d : Nat} {entries : List (Node × Node)} {problem : Problem}
    (mem : (d, problem) ∈ entryProblems depth entries) (escapes : ¬ problem.IsMalformed) :
    ∃ entry ∈ entries, ∃ inner, (entry.1.Holds inner ∨ entry.2.Holds inner) ∧
      inner.Unreadable problem := by
  match entries with
  | [] => cases mem
  | (key, value) :: rest =>
    rw [entryProblems, List.mem_append, List.mem_append] at mem
    rcases mem with (mem | mem) | mem
    · split at mem
      · exact absurd (malformed_of_mem mem) escapes
      · obtain ⟨inner, holds, unreadable⟩ := exists_unreadable mem escapes
        exact ⟨_, List.mem_cons_self, inner, .inl holds, unreadable⟩
    · obtain ⟨inner, holds, unreadable⟩ := exists_unreadable mem escapes
      exact ⟨_, List.mem_cons_self, inner, .inr holds, unreadable⟩
    · obtain ⟨other, inside, found⟩ := exists_unreadable_entry mem escapes
      exact ⟨other, List.mem_cons_of_mem _ inside, found⟩

end

end Branchwork.Yaml
