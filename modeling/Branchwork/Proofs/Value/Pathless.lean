import Branchwork.Json.Reader
import Branchwork.Step.Basic

/-!
# Values without paths

A value can hold a path, and a path can hold names that no text spells. But no document spells a path
either: whatever was read as JSON has none in it, and what is put together from such values has none.

Main results:

* `Json.pathless_read` — documents hold no paths.
* `Mapping.Pathless.put`, `Mapping.pathless_joinKeys`, `Mapping.pathless_rename` — nor do mappings that
  are made of them.
-/

namespace Branchwork

/-- A value without a path in it. -/
inductive Value.Pathless : Value → Prop
  | null : Pathless .null
  | bool (b) : Pathless (.bool b)
  | int (i) : Pathless (.int i)
  | float (x) : Pathless (.float x)
  | text (s) : Pathless (.text s)
  | date (d) : Pathless (.date d)
  | moment (t) : Pathless (.moment t)
  | bytes (b) : Pathless (.bytes b)
  | list {items} : (∀ v ∈ items, Pathless v) → Pathless (.list items)
  | tuple {items} : (∀ v ∈ items, Pathless v) → Pathless (.tuple items)
  | set {items} : (∀ v ∈ items, Pathless v) → Pathless (.set items)
  | map {entries : Mapping} : (∀ entry ∈ entries, Pathless entry.1) →
      (∀ entry ∈ entries, Pathless entry.2) → Pathless (.map entries)

/-- A mapping without a path in it. -/
def Mapping.Pathless (entries : Mapping) : Prop :=
  ∀ entry ∈ entries, entry.1.Pathless ∧ entry.2.Pathless

theorem Mapping.Pathless.get? {entries : Mapping} (pathless : entries.Pathless) {key v : Value}
    (h : Mapping.get? key entries = some v) : v.Pathless := by
  induction entries with
  | nil => cases h
  | cons entry rest ih =>
    obtain ⟨k, x⟩ := entry
    rw [Mapping.get?] at h
    split at h
    · cases h
      exact (pathless _ List.mem_cons_self).2
    · exact ih (fun entry mem => pathless entry (List.mem_cons_of_mem _ mem)) h

namespace Value

theorem pathless_map_iff {entries : Mapping} : (Value.map entries).Pathless ↔ entries.Pathless := by
  constructor
  · intro pathless entry mem
    cases pathless with
    | map keys values => exact ⟨keys entry mem, values entry mem⟩
  · exact fun each => .map (fun entry mem => (each entry mem).1) fun entry mem => (each entry mem).2

/-! ## Views -/

theorem Pathless.members? {v : Value} (pathless : v.Pathless) {items : List Value}
    (h : v.members? = some items) : ∀ x ∈ items, x.Pathless := by
  cases pathless with
  | list each | tuple each | set each =>
    cases h
    exact each
  | text s =>
    cases h
    intro x mem
    obtain ⟨c, -, rfl⟩ := List.mem_map.mp mem
    exact .text _
  | bytes b =>
    cases h
    intro x mem
    obtain ⟨byte, -, rfl⟩ := List.mem_map.mp mem
    exact .int _
  | map keys _ =>
    cases h
    intro x mem
    obtain ⟨entry, isEntry, rfl⟩ := List.mem_map.mp mem
    exact keys entry isEntry
  | _ => cases h

theorem Pathless.members {v : Value} (pathless : v.Pathless) {items : List Value}
    (h : v.members = .ok items) : ∀ x ∈ items, x.Pathless := by
  unfold Value.members at h
  cases found : v.members? with
  | none =>
    rw [found] at h
    cases h
  | some members =>
    rw [found] at h
    cases h
    exact pathless.members? found

theorem Pathless.pair {v l r : Value} (pathless : v.Pathless) (h : v.pair = .ok (l, r)) :
    l.Pathless ∧ r.Pathless := by
  unfold Value.pair at h
  split at h
  · cases h
  · rename_i left right found
    cases h
    have each := pathless.members? found
    exact ⟨each l (by simp), each r (by simp)⟩
  · split at h <;> cases h

theorem Pathless.first {v x : Value} (pathless : v.Pathless) (h : v.first = .ok x) :
    x.Pathless := by
  unfold Value.first at h
  split at h
  · cases h
  · cases h
  · cases h
    cases pathless with
    | list each => exact each _ List.mem_cons_self
  · cases h
    cases pathless with
    | tuple each => exact each _ List.mem_cons_self
  · split at h
    · cases h
      exact .text _
    · cases h
  · rename_i entries
    cases found : Mapping.get? (.int 0) entries with
    | none =>
      rw [found] at h
      cases h
    | some y =>
      rw [found] at h
      cases h
      exact (pathless_map_iff.mp pathless).get? found
  · cases h

theorem Pathless.entries {v : Value} (pathless : v.Pathless) {entries : Mapping}
    (h : v.entries = .ok entries) : entries.Pathless := by
  cases v with
  | map inside =>
    cases h
    exact pathless_map_iff.mp pathless
  | _ => cases h

end Value

namespace Mapping

/-! ## Mappings -/

theorem Pathless.put {entries : Mapping} (pathless : entries.Pathless) {key v : Value}
    (keyPathless : key.Pathless) (valuePathless : v.Pathless) : (put key v entries).Pathless := by
  induction entries with
  | nil =>
    intro entry mem
    rw [List.mem_singleton.mp mem]
    exact ⟨keyPathless, valuePathless⟩
  | cons first rest ih =>
    obtain ⟨k, x⟩ := first
    have others : Mapping.Pathless rest := fun entry mem =>
      pathless entry (List.mem_cons_of_mem _ mem)
    intro entry mem
    rw [Mapping.put] at mem
    split at mem
    · rcases List.mem_cons.mp mem with rfl | mem
      · exact ⟨(pathless _ List.mem_cons_self).1, valuePathless⟩
      · exact others entry mem
    · rcases List.mem_cons.mp mem with rfl | mem
      · exact pathless _ List.mem_cons_self
      · exact ih others entry mem

theorem pathless_foldl_put {pairs done : Mapping} (pathless : done.Pathless)
    (each : pairs.Pathless) :
    Mapping.Pathless (pairs.foldl (fun done entry => put entry.1 entry.2 done) done) := by
  induction pairs generalizing done with
  | nil => exact pathless
  | cons first rest ih =>
    obtain ⟨key, value⟩ := each first List.mem_cons_self
    exact ih (pathless.put key value) fun entry mem => each entry (List.mem_cons_of_mem _ mem)

theorem pathless_ofPairs {pairs : Mapping} (pathless : pairs.Pathless) : (ofPairs pairs).Pathless :=
  pathless_foldl_put (fun _ mem => by cases mem) pathless

/-- Names that are added to a mapping one by one, each as its own value. -/
theorem pathless_foldlM_put {names : List Value} {done entries : Mapping} (pathless : done.Pathless)
    (each : ∀ name ∈ names, name.Pathless)
    (h : names.foldlM (fun entries name => do return put (← name.key) name entries) done =
      (.ok entries : Except ShapeProblem _)) : entries.Pathless := by
  induction names generalizing done with
  | nil =>
    cases h
    exact pathless
  | cons name rest ih =>
    have first := each name List.mem_cons_self
    rw [List.foldlM_cons] at h
    unfold Value.key at h
    by_cases isKey : name.isKey = true
    · rw [if_pos isKey] at h
      exact ih (pathless.put first first) (fun other mem => each other (List.mem_cons_of_mem _ mem)) h
    · rw [if_neg isKey] at h
      cases h

theorem pathless_ofKeys {names : List Value} {entries : Mapping}
    (pathless : ∀ name ∈ names, name.Pathless) (h : ofKeys names = .ok entries) :
    entries.Pathless := by
  cases names with
  | nil =>
    cases h
    exact fun _ mem => by cases mem
  | cons name rest => exact pathless_foldlM_put (fun _ mem => by cases mem) pathless h

theorem pathless_joinKeys {entries : Mapping} (pathless : entries.Pathless) :
    entries.joinKeys.Pathless := by
  refine pathless_ofPairs fun entry mem => ?_
  -- an entry comes from inside a mapping, under a text, or is passed on as it is
  obtain ⟨⟨key, v⟩, isEntry, mem⟩ := List.mem_flatMap.mp mem
  have outer := pathless _ isEntry
  dsimp only at mem
  unfold joinEntry at mem
  split at mem
  · obtain ⟨inner, isInner, rfl⟩ := List.mem_map.mp mem
    exact ⟨.text _, (Value.pathless_map_iff.mp outer.2 inner isInner).2⟩
  · rw [List.mem_singleton.mp mem]
    exact outer

theorem pathless_renameFrom {pattern target : String} {entries done named : Mapping}
    {sources : List (String × String)} (pathless : entries.Pathless) (before : done.Pathless)
    (h : renameFrom pattern target done sources entries = .ok named) : named.Pathless := by
  induction entries generalizing done sources with
  | nil =>
    cases h
    exact before
  | cons entry rest ih =>
    obtain ⟨key, v⟩ := entry
    have others : Mapping.Pathless rest := fun entry mem =>
      pathless entry (List.mem_cons_of_mem _ mem)
    unfold renameFrom at h
    cases key with
    | text key =>
      dsimp only at h
      split at h
      · cases h
      · refine ih others ?_ h
        intro entry mem
        rcases List.mem_append.mp mem with mem | mem
        · exact before entry mem
        · rw [List.mem_singleton.mp mem]
          exact ⟨.text _, (pathless _ List.mem_cons_self).2⟩
    | _ => cases h

theorem pathless_rename {pattern target : String} {entries named : Mapping}
    (pathless : entries.Pathless) (h : entries.rename pattern target = .ok named) :
    named.Pathless :=
  pathless_renameFrom pathless (fun _ mem => by cases mem) h

end Mapping

/-! ## Documents -/

namespace Json

theorem pathless_unsigned {negative : Bool} {start s : List Char} {v : Value} {rest : List Char}
    (h : unsigned negative start s = .ok (v, rest)) : v.Pathless := by
  unfold unsigned stopAt at h
  dsimp only at h
  -- whatever the digits are, the reader stops or comes to a number
  repeat' split at h
  all_goals cases h
  all_goals first | exact .int _ | exact .float _

theorem pathless_scalar {s : List Char} {v : Value} {rest : List Char}
    (h : scalar s = .ok (v, rest)) : v.Pathless := by
  have words : ∀ word ∈ keywords, word.2.Pathless := by
    simp only [keywords, List.forall_mem_cons, List.not_mem_nil, false_imp_iff, implies_true, and_true]
    exact ⟨.null, .bool _, .bool _, .float _, .float _, .float _⟩
  unfold scalar at h
  split at h
  · rename_i body
    generalize stringBody _ body = read at h
    cases read with
    | error stop => cases h
    | ok found =>
      cases h
      exact .text _
  · split at h
    · rename_i word value found
      cases h
      exact words _ (List.mem_of_find?_eq_some found)
    · unfold number at h
      split at h <;> exact pathless_unsigned h

theorem eq_ok_of_map {α β : Type} {f : α × List Char → β × List Char} {reading : Reading α}
    {y : β × List Char} (h : reading.map f = .ok y) : ∃ x, reading = .ok x ∧ y = f x := by
  cases reading with
  | error stop => cases h
  | ok x =>
    cases h
    exact ⟨x, rfl, rfl⟩

/-- What the readers give that have this much fuel: the reader of values, of the members of a list and
of the entries of a mapping. -/
structure ReadsPathless (fuel : Nat) : Prop where
  value : ∀ {s v rest}, value fuel s = .ok (v, rest) → v.Pathless
  items : ∀ {s xs rest}, items fuel s = .ok (xs, rest) → ∀ v ∈ xs, v.Pathless
  entries : ∀ {read s more rest}, entries fuel read s = .ok (more, rest) → read.Pathless →
    more.Pathless

/-- A value is a mapping, a list or a scalar, by its first character. -/
theorem ReadsPathless.value_succ {fuel : Nat} (reads : ReadsPathless fuel) {s rest : List Char}
    {v : Value} (h : Json.value (fuel + 1) s = .ok (v, rest)) : v.Pathless := by
  have empty : Mapping.Pathless [] := fun _ mem => by cases mem
  unfold Json.value at h
  dsimp only at h
  split at h
  · split at h
    · cases h
      exact Value.pathless_map_iff.mpr empty
    · obtain ⟨⟨read, after⟩, ok, same⟩ := eq_ok_of_map h
      cases same
      exact Value.pathless_map_iff.mpr (reads.entries ok empty)
  · split at h
    · cases h
      exact .list fun _ mem => by cases mem
    · obtain ⟨⟨read, after⟩, ok, same⟩ := eq_ok_of_map h
      cases same
      exact .list (reads.items ok)
  · exact pathless_scalar h

/-- Behind a member the list ends, or other members follow. -/
theorem ReadsPathless.items_succ {fuel : Nat} (reads : ReadsPathless fuel) {s rest : List Char}
    {xs : List Value} (h : Json.items (fuel + 1) s = .ok (xs, rest)) : ∀ v ∈ xs, v.Pathless := by
  unfold Json.items at h
  dsimp only at h
  cases first : Json.value fuel s with
  | error stop =>
    rw [first] at h
    cases h
  | ok found =>
    obtain ⟨item, after⟩ := found
    rw [first] at h
    dsimp only at h
    have here := reads.value first
    split at h
    · cases h
      intro v mem
      rw [List.mem_singleton.mp mem]
      exact here
    · obtain ⟨⟨others, last⟩, ok, same⟩ := eq_ok_of_map h
      cases same
      intro v mem
      rcases List.mem_cons.mp mem with rfl | mem
      · exact here
      · exact reads.items ok v mem
    · cases h

/-- The entries so far take up the one that is read, and the reader ends or goes on with them. -/
theorem ReadsPathless.entries_succ {fuel : Nat} (reads : ReadsPathless fuel) {s rest : List Char}
    {read more : Mapping} (h : Json.entries (fuel + 1) read s = .ok (more, rest))
    (pathless : read.Pathless) : more.Pathless := by
  unfold Json.entries at h
  dsimp only at h
  split at h
  · split at h
    · cases h
    · rename_i key _ _
      split at h
      · split at h
        · cases h
        · rename_i v after ok
          have put := pathless.put (.text (String.ofList key)) (reads.value ok)
          split at h
          · cases h
            exact put
          · exact reads.entries h put
          · cases h
      · cases h
  · cases h

theorem readsPathless (fuel : Nat) : ReadsPathless fuel := by
  -- the three readers call each other with one unit of fuel less
  induction fuel with
  | zero =>
    refine ⟨fun h => ?_, fun h => ?_, fun h _ => ?_⟩
    · rw [value] at h
      cases h
    · rw [items] at h
      cases h
    · rw [entries] at h
      cases h
  | succ fuel reads => exact ⟨reads.value_succ, reads.items_succ, reads.entries_succ⟩

/-- What a document stands for holds no path. -/
theorem pathless_read {text : String} {v : Value} (h : read text = .ok v) : v.Pathless := by
  unfold read at h
  cases result : document text.toList with
  | error stop =>
    rw [result] at h
    cases h
  | ok found =>
    rw [result] at h
    cases h
    unfold document at result
    split at result
    · cases result
    · split at result
      · cases result
      · rename_i v' after ok
        dsimp only at result
        split at result
        · cases result
          exact (readsPathless _).value ok
        · cases result

end Json

end Branchwork
