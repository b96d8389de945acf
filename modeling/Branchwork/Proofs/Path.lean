import Branchwork.Path

/-!
# Names in paths

A path that was read from a text has proper names only, and proper names that are joined into a text
are read back from it.

Main results: `proper_ofText`, `ofText_intercalate`.
-/

namespace Branchwork.Path

/-- A name that something in a directory can have. -/
def IsName (name : String) : Prop :=
  name ≠ "" ∧ name ≠ "." ∧ name ≠ ".." ∧ '/' ∉ name.toList

instance (name : String) : Decidable (IsName name) := inferInstanceAs (Decidable (_ ∧ _))

/-- A path that can be followed name by name: each one leads back or is proper. -/
def Proper (p : Path) : Prop := ∀ name ∈ p.parts, name = ".." ∨ IsName name

theorem slash_not_mem_splitSlashes (s : List Char) : ∀ part ∈ splitSlashes s, '/' ∉ part := by
  induction s with
  | nil => simp [splitSlashes]
  | cons c rest ih =>
    intro part mem
    rw [splitSlashes] at mem
    by_cases slash : c = '/'
    · -- a slash ends a part, so a new one that is still empty stands in front
      rw [if_pos slash] at mem
      rcases List.mem_cons.mp mem with rfl | mem
      · exact List.not_mem_nil
      · exact ih part mem
    · -- any other character joins the first part
      rw [if_neg slash] at mem
      have first : ∀ part, '/' ∉ part → '/' ∉ c :: part := by
        intro part apart mem
        rcases List.mem_cons.mp mem with same | mem
        · exact slash same.symm
        · exact apart mem
      cases parts : splitSlashes rest with
      | nil =>
        rw [parts] at mem
        rw [List.mem_singleton.mp mem]
        exact first [] List.not_mem_nil
      | cons head more =>
        rw [parts] at mem ih
        rcases List.mem_cons.mp mem with rfl | mem
        · exact first head (ih head List.mem_cons_self)
        · exact ih part (List.mem_cons_of_mem _ mem)

theorem proper_ofText (s : String) : (ofText s).Proper := by
  intro name mem
  obtain ⟨part, isPart, rfl⟩ := List.mem_map.mp mem
  obtain ⟨isPart, kept⟩ := List.mem_filter.mp isPart
  simp only [ne_eq, Bool.and_eq_true, decide_eq_true_eq] at kept
  by_cases back : String.ofList part = ".."
  · exact .inl back
  refine .inr ⟨?_, ?_, back, ?_⟩
  · rw [ne_eq, ← String.toList_inj, String.toList_ofList]
    exact kept.1
  · rw [ne_eq, ← String.toList_inj, String.toList_ofList]
    exact kept.2
  · rw [String.toList_ofList]
    exact slash_not_mem_splitSlashes _ part isPart

theorem Proper.join {p q : Path} (first : p.Proper) (second : q.Proper) : (p.join q).Proper := by
  unfold Path.join
  split
  · exact second
  · intro name mem
    rcases List.mem_append.mp mem with mem | mem
    · exact first name mem
    · exact second name mem

theorem Proper.parent {p : Path} (proper : p.Proper) : p.parent.Proper :=
  fun name mem => proper name (List.dropLast_subset _ mem)

/-! ## Names joined into a text -/

theorem splitSlashes_of_slashless {part : List Char} (slashless : '/' ∉ part) :
    splitSlashes part = [part] := by
  induction part with
  | nil => rfl
  | cons c rest ih =>
    rw [List.mem_cons, not_or] at slashless
    rw [splitSlashes, if_neg (Ne.symm slashless.1), ih slashless.2]

theorem splitSlashes_append {part : List Char} (slashless : '/' ∉ part) (rest : List Char) :
    splitSlashes (part ++ '/' :: rest) = part :: splitSlashes rest := by
  induction part with
  | nil => rw [List.nil_append, splitSlashes, if_pos rfl]
  | cons c part ih =>
    rw [List.mem_cons, not_or] at slashless
    rw [List.cons_append, splitSlashes, if_neg (Ne.symm slashless.1), ih slashless.2]

theorem splitSlashes_intercalate {parts : List (List Char)} (ne : parts ≠ [])
    (slashless : ∀ part ∈ parts, '/' ∉ part) :
    splitSlashes (['/'].intercalate parts) = parts := by
  induction parts with
  | nil => exact absurd rfl ne
  | cons part rest ih =>
    have here := slashless part List.mem_cons_self
    cases rest with
    | nil => simpa [List.intercalate] using splitSlashes_of_slashless here
    | cons next rest =>
      have joined : ['/'].intercalate (part :: next :: rest) =
          part ++ '/' :: ['/'].intercalate (next :: rest) := by
        simp [List.intercalate, List.intersperse]
      rw [joined, splitSlashes_append here,
        ih (List.cons_ne_nil _ _) fun other mem => slashless other (List.mem_cons_of_mem _ mem)]

/-- A text that does not begin with a slash is about a place below the working directory. -/
theorem anchorOf_append {part : List Char} (nonempty : part ≠ []) (slashless : '/' ∉ part)
    (rest : List Char) : anchorOf (part ++ rest) = .here := by
  cases part with
  | nil => exact absurd rfl nonempty
  | cons c part =>
    have first : c ≠ '/' := fun same => slashless (same ▸ List.mem_cons_self)
    rw [List.cons_append]
    unfold anchorOf
    split <;> simp_all

theorem exists_intercalate_cons (name : String) (rest : List String) :
    ∃ tail, ("/".intercalate (name :: rest)).toList = name.toList ++ tail := by
  rw [String.toList_intercalate, List.map_cons]
  cases rest with
  | nil => exact ⟨[], by simp [List.intercalate]⟩
  | cons next rest => exact ⟨_, by simp [List.intercalate]; rfl⟩

/-- Names that are joined into a text, each of them proper or leading back, are the names of the path
that it spells. -/
theorem ofText_intercalate {names : List String} (ne : names ≠ [])
    (proper : ∀ name ∈ names, name = ".." ∨ IsName name) :
    ofText ("/".intercalate names) = ⟨.here, names⟩ := by
  have spelt : ∀ name ∈ names, name.toList ≠ [] ∧ name.toList ≠ ['.'] ∧ '/' ∉ name.toList := by
    intro name mem
    rw [show ['.'] = ".".toList from rfl, show [] = "".toList from rfl, ne_eq, ne_eq,
      String.toList_inj, String.toList_inj]
    rcases proper name mem with rfl | isName
    · decide
    · exact ⟨isName.1, isName.2.1, isName.2.2.2⟩
  have parts : splitSlashes ("/".intercalate names).toList = names.map String.toList := by
    rw [String.toList_intercalate]
    refine splitSlashes_intercalate (by simpa using ne) fun part mem => ?_
    obtain ⟨name, isName, rfl⟩ := List.mem_map.mp mem
    exact (spelt name isName).2.2
  -- no part is empty or a point, so none of them is left out
  have kept : (names.map String.toList).filter (fun part => part ≠ [] && part ≠ ['.']) =
      names.map String.toList := by
    refine List.filter_eq_self.mpr fun part mem => ?_
    obtain ⟨name, isName, rfl⟩ := List.mem_map.mp mem
    obtain ⟨nonempty, dotless, -⟩ := spelt name isName
    simp [dotless, nonempty]
  have anchor : anchorOf ("/".intercalate names).toList = .here := by
    obtain ⟨name, rest, rfl⟩ := List.exists_cons_of_ne_nil ne
    obtain ⟨nonempty, -, slashless⟩ := spelt name List.mem_cons_self
    obtain ⟨tail, split⟩ := exists_intercalate_cons name rest
    rw [split]
    exact anchorOf_append nonempty slashless tail
  unfold ofText
  rw [anchor, parts, kept, List.map_map]
  simp

end Branchwork.Path
