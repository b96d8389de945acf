import Branchwork.Proofs.Action
import Branchwork.Proofs.Result
import Branchwork.Proofs.Table
import Branchwork.Step.Basic
import Mathlib.Data.List.Nodup

/-!
# Mappings with texts for keys

The mapping that a pipeline carries has texts for keys, each of them once. Such a mapping is written
down by its rows. What the combinators make of it has texts for keys again: values are put under names,
entries are joined with the entries inside them, and keys are renamed.

Main results:

* `Mapping.ofKeys_texts` — the mapping of names to themselves.
* `Mapping.joinKeys_ofNested` — one level of mappings is flattened.
* `Mapping.rename_ofTexts` — when the keys of a mapping are renamed, and which two keys prevent it.
-/

namespace Branchwork

/-- The mapping with the given rows. -/
def Mapping.ofTexts (rows : List (String × Value)) : Mapping :=
  rows.map fun row => (.text row.1, row.2)

/-- A value is a mapping whose keys are different texts; `P` holds of the keys and `Q` of the values. -/
def Value.IsTable (P : String → Prop) (Q : Value → Prop) (v : Value) : Prop :=
  ∃ rows, v = .map (Mapping.ofTexts rows) ∧ (rows.map (·.1)).Nodup ∧
    ∀ row ∈ rows, P row.1 ∧ Q row.2

theorem Value.IsTable.mono {P P' : String → Prop} {Q Q' : Value → Prop} {v : Value}
    (table : v.IsTable P Q) (keys : ∀ key, P key → P' key) (values : ∀ x, Q x → Q' x) :
    v.IsTable P' Q' := by
  obtain ⟨rows, rfl, distinct, each⟩ := table
  exact ⟨rows, rfl, distinct, fun row mem => (each row mem).imp (keys _) (values _)⟩

/-- A key that equals a text is that text. -/
theorem Value.equals_text_iff {key : Value} {name : String} :
    key.equals (.text name) = true ↔ key = .text name := by
  cases key <;> simp [Value.equals, Value.wholeNumber?]

theorem Value.equals_of_text {name : String} {key : Value} (h : (Value.text name).equals key = true) :
    key = .text name := by
  cases key <;> simp_all [Value.equals, Value.wholeNumber?]

namespace Mapping

@[simp] theorem ofTexts_nil : ofTexts [] = [] := rfl

@[simp] theorem ofTexts_cons (row : String × Value) (rows : List (String × Value)) :
    ofTexts (row :: rows) = (.text row.1, row.2) :: ofTexts rows := rfl

@[simp] theorem ofTexts_append (rows more : List (String × Value)) :
    ofTexts (rows ++ more) = ofTexts rows ++ ofTexts more := List.map_append

theorem ofTexts_injective {rows rows' : List (String × Value)}
    (same : ofTexts rows = ofTexts rows') : rows = rows' := by
  refine List.map_injective_iff.mpr (fun row row' same => ?_) same
  obtain ⟨key, value⟩ := Prod.mk.inj same
  exact Prod.ext (Value.text.inj key) value

/-! ## Putting entries -/

theorem equals_text (k key : String) : (Value.text k).equals (.text key) = decide (k = key) := by
  rw [Value.equals]

/-- A text that is a key keeps its place; a new one comes last. -/
theorem put_ofTexts (key : String) (v : Value) (rows : List (String × Value)) :
    ∃ rows', put (.text key) v (ofTexts rows) = ofTexts rows' ∧
      (rows'.map (·.1) = if key ∈ rows.map (·.1) then rows.map (·.1) else rows.map (·.1) ++ [key]) ∧
      ∀ row ∈ rows', row = (key, v) ∨ row ∈ rows := by
  induction rows with
  | nil => exact ⟨[(key, v)], rfl, rfl, fun row mem => .inl (List.mem_singleton.mp mem)⟩
  | cons first rest ih =>
    obtain ⟨k, old⟩ := first
    rw [ofTexts_cons, put, equals_text]
    by_cases here : k = key
    · subst here
      refine ⟨(k, v) :: rest, by simp, by simp, fun row mem => ?_⟩
      exact (List.mem_cons.mp mem).imp_right (List.mem_cons_of_mem _)
    · obtain ⟨rows', same, keys, each⟩ := ih
      refine ⟨(k, old) :: rows', by simp [here, same], ?_, fun row mem => ?_⟩
      · rw [List.map_cons, keys, List.map_cons]
        by_cases later : key ∈ rest.map (·.1)
        · simp [later]
        · simp [later, Ne.symm here]
      · rcases List.mem_cons.mp mem with rfl | mem
        · exact .inr List.mem_cons_self
        · exact (each row mem).imp_right (List.mem_cons_of_mem _)

/-- Entries that are put in order have each key once. -/
theorem ofPairs_ofTexts (rows : List (String × Value)) :
    ∃ rows', ofPairs (ofTexts rows) = ofTexts rows' ∧ (rows'.map (·.1)).Nodup ∧
      ∀ row ∈ rows', row ∈ rows := by
  -- for every mapping to start from whose keys are different
  have folds : ∀ (rows start : List (String × Value)), (start.map (·.1)).Nodup →
      ∃ rows', (ofTexts rows).foldl (fun done entry => put entry.1 entry.2 done) (ofTexts start) =
        ofTexts rows' ∧ (rows'.map (·.1)).Nodup ∧ ∀ row ∈ rows', row ∈ start ∨ row ∈ rows := by
    intro rows
    induction rows with
    | nil => exact fun start distinct => ⟨start, rfl, distinct, fun row mem => .inl mem⟩
    | cons first rest ih =>
      intro start distinct
      obtain ⟨mid, same, keys, each⟩ := put_ofTexts first.1 first.2 start
      obtain ⟨rows', further, distinct', each'⟩ := ih mid (keys ▸ nodup_putLast distinct)
      refine ⟨rows', ?_, distinct', fun row mem => ?_⟩
      · rw [ofTexts_cons, List.foldl_cons]
        dsimp only
        rw [same]
        exact further
      · rcases each' row mem with old | new
        · rcases each row old with rfl | older
          · exact .inr List.mem_cons_self
          · exact .inl older
        · exact .inr (List.mem_cons_of_mem _ new)
  obtain ⟨rows', same, distinct, each⟩ := folds rows [] List.nodup_nil
  exact ⟨rows', same, distinct, fun row mem => (each row mem).resolve_left List.not_mem_nil⟩

/-- Names are put under themselves, one after the other. -/
theorem foldlM_put_texts (names : List String) (start : List (String × Value))
    (once : (start.map (·.1)).Nodup) :
    ∃ rows, (names.map Value.text).foldlM (fun entries name => do
        return put (← name.key) name entries) (ofTexts start) =
          (.ok (ofTexts rows) : Except ShapeProblem _) ∧
      (rows.map (·.1)).Nodup ∧
      ∀ row ∈ rows, row ∈ start ∨ (row.1 ∈ names ∧ row.2 = .text row.1) := by
  induction names generalizing start with
  | nil => exact ⟨start, rfl, once, fun row mem => .inl mem⟩
  | cons name rest ih =>
    obtain ⟨mid, same, keys, each⟩ := put_ofTexts name (.text name) start
    obtain ⟨rows, further, distinct, each'⟩ := ih mid (keys ▸ nodup_putLast once)
    refine ⟨rows, ?_, distinct, fun row mem => ?_⟩
    · have key : (Value.text name).key = .ok (.text name) := rfl
      rw [List.map_cons, List.foldlM_cons, key]
      show (pure (put (.text name) (.text name) (ofTexts start)) >>= fun entries => _) = _
      rw [same]
      exact further
    · -- a row was there, or is the one of this name, or comes of a later name
      rcases each' row mem with old | ⟨new, itself⟩
      · rcases each row old with rfl | older
        · exact .inr ⟨List.mem_cons_self, rfl⟩
        · exact .inl older
      · exact .inr ⟨List.mem_cons_of_mem _ new, itself⟩

/-- Names can be keys, each is put under itself. -/
theorem ofKeys_texts (names : List String) :
    ∃ rows, ofKeys (names.map .text) = .ok (ofTexts rows) ∧ (rows.map (·.1)).Nodup ∧
      ∀ row ∈ rows, row.1 ∈ names ∧ row.2 = .text row.1 := by
  obtain ⟨rows, same, distinct, each⟩ := foldlM_put_texts names [] List.nodup_nil
  refine ⟨rows, ?_, distinct, fun row mem => (each row mem).resolve_left List.not_mem_nil⟩
  cases names with
  | nil => exact same
  | cons name rest => exact same

/-! ## Joining keys -/

/-- The entries that a mapping stands for when it is flattened. -/
def parts (entries : Mapping) : Mapping := entries.flatMap fun (key, v) => joinEntry key v

/-- What is inside an entry comes out under the key of the entry and its own, with a dot between. -/
theorem parts_nested {α : Type} (rows : List α) (key : α → Value)
    (inside : α → List (String × Value)) :
    parts (rows.map fun row => (key row, .map (ofTexts (inside row)))) =
      ofTexts (rows.flatMap fun row =>
        (inside row).map fun inner => ((key row).plain ++ "." ++ inner.1, inner.2)) := by
  rw [parts, List.flatMap_map, ofTexts, List.map_flatMap]
  simp [joinEntry, ofTexts, Function.comp_def, Value.plain]

/-- A mapping of mappings. -/
def ofNested (rows : List (String × List (String × Value))) : Mapping :=
  ofTexts (rows.map fun row => (row.1, .map (ofTexts row.2)))

theorem joinKeys_ofNested (rows : List (String × List (String × Value))) :
    ∃ rows', joinKeys (ofNested rows) = ofTexts rows' ∧ (rows'.map (·.1)).Nodup ∧
      ∀ row ∈ rows', ∃ outer ∈ rows, ∃ inner ∈ outer.2,
        row = (outer.1 ++ "." ++ inner.1, inner.2) := by
  let joined := rows.flatMap fun outer =>
    outer.2.map fun inner => (outer.1 ++ "." ++ inner.1, inner.2)
  have flat : parts (ofNested rows) = ofTexts joined := by
    rw [ofNested, ofTexts, List.map_map]
    exact parts_nested rows (fun row => .text row.1) (·.2)
  obtain ⟨rows', same, distinct, each⟩ := ofPairs_ofTexts joined
  refine ⟨rows', (congrArg ofPairs flat).trans same, distinct, fun row mem => ?_⟩
  obtain ⟨outer, memOuter, inside⟩ := List.mem_flatMap.mp (each row mem)
  obtain ⟨inner, memInner, rfl⟩ := List.mem_map.mp inside
  exact ⟨outer, memOuter, inner, memInner, rfl⟩

/-! ## Renaming keys -/

/-- Renamed keys have different names, and none of the names that were given before. -/
theorem renameFrom_ofTexts {pattern target : String} {rows : List (String × Value)}
    {done named : Mapping} {sources : List (String × String)}
    (h : renameFrom pattern target done sources (ofTexts rows) = .ok named) :
    named = done ++ ofTexts (rows.map fun row => (Pattern.outputName pattern row.1 target, row.2)) ∧
      (rows.map fun row => Pattern.outputName pattern row.1 target).Nodup ∧
      ∀ row ∈ rows, sources.lookup (Pattern.outputName pattern row.1 target) = none := by
  induction rows generalizing done sources with
  | nil =>
    cases h
    exact ⟨(List.append_nil _).symm, List.nodup_nil, fun _ mem => by cases mem⟩
  | cons first rest ih =>
    obtain ⟨key, v⟩ := first
    rw [ofTexts_cons, renameFrom] at h
    dsimp only at h
    -- a name that is taken ends the renaming, so the name of the first key is a fresh one
    cases fresh : sources.lookup (Pattern.outputName pattern key target) with
    | some source =>
      rw [fresh] at h
      cases h
    | none =>
      rw [fresh] at h
      obtain ⟨rfl, distinct, apart⟩ := ih h
      refine ⟨by simp, ?_, ?_⟩
      · refine List.nodup_cons.mpr ⟨fun mem => ?_, distinct⟩
        -- the name was taken down as given
        obtain ⟨other, mem, same⟩ := List.mem_map.mp mem
        have given := apart other mem
        simp [same] at given
      · -- no name of a later key was given before either
        intro other mem
        rcases List.mem_cons.mp mem with rfl | mem
        · exact fresh
        · have given := apart other mem
          rw [List.lookup_cons] at given
          split at given
          · cases given
          · exact given

/-- The first key in order that gets a name which another key has got before it. -/
def FirstClash (name : String → String) (keys : List String) (source key : String) : Prop :=
  ∃ before after, keys = before ++ key :: after ∧ (before.map name).Nodup ∧ source ∈ before ∧
    name source = name key

theorem FirstClash.not_nodup {name : String → String} {keys : List String} {source key : String}
    (clash : FirstClash name keys source key) : ¬(keys.map name).Nodup := by
  obtain ⟨before, after, rfl, -, mem, same⟩ := clash
  rw [List.map_append, List.map_cons, List.nodup_append]
  rintro ⟨-, -, apart⟩
  exact apart _ (List.mem_map_of_mem mem) _ List.mem_cons_self same

/-- The names that keys have got so far, the last one first, with their keys. -/
def takenNames (name : String → String) (seen : List String) : List (String × String) :=
  (seen.map fun key => (name key, key)).reverse

theorem takenNames_concat (name : String → String) (seen : List String) (key : String) :
    takenNames name (seen ++ [key]) = (name key, key) :: takenNames name seen := by
  simp [takenNames]

theorem lookup_takenNames_eq_some {name : String → String} {seen : List String}
    {new source : String} (h : (takenNames name seen).lookup new = some source) :
    source ∈ seen ∧ name source = new := by
  obtain ⟨before, after, split, -⟩ := List.lookup_eq_some_iff.mp h
  have among : (new, source) ∈ takenNames name seen := by simp [split]
  obtain ⟨key, mem, pair⟩ := List.mem_map.mp (List.mem_reverse.mp among)
  obtain ⟨same, rfl⟩ := Prod.mk.inj pair
  exact ⟨mem, same⟩

theorem lookup_takenNames_eq_none {name : String → String} {seen : List String} {new : String}
    (h : (takenNames name seen).lookup new = none) : new ∉ seen.map name := by
  intro taken
  have keys : (takenNames name seen).map (·.1) = (seen.map name).reverse := by
    simp [takenNames, Function.comp_def]
  have there := (lookup_isSome_iff (takenNames name seen) new).mpr (by simpa [keys] using taken)
  rw [h] at there
  cases there

/-- Renaming fails at the first key whose name is taken, and says which key has taken it. -/
theorem firstClash_of_renameFrom {pattern target : String} (seen : List String)
    (once : (seen.map (Pattern.outputName pattern · target)).Nodup) {rows : List (String × Value)}
    {done : Mapping} {fault : Fault}
    (h : renameFrom pattern target done (takenNames (Pattern.outputName pattern · target) seen)
      (ofTexts rows) = .error fault) :
    ∃ source key, FirstClash (Pattern.outputName pattern · target) (seen ++ rows.map (·.1)) source key ∧
      fault = .sameName source key (Pattern.outputName pattern key target) := by
  -- the names that are taken are always those of the keys that were seen
  induction rows generalizing done seen with
  | nil => cases h
  | cons first rest ih =>
    obtain ⟨key, v⟩ := first
    rw [ofTexts_cons, renameFrom] at h
    dsimp only at h
    cases given : (takenNames (Pattern.outputName pattern · target) seen).lookup
        (Pattern.outputName pattern key target) with
    | some source =>
      rw [given] at h
      cases h
      obtain ⟨mem, same⟩ := lookup_takenNames_eq_some given
      exact ⟨source, key, ⟨seen, rest.map (·.1), rfl, once, mem, same⟩, rfl⟩
    | none =>
      rw [given] at h
      dsimp only at h
      rw [← takenNames_concat (Pattern.outputName pattern · target)] at h
      -- the key is one more of those that have their names
      have fresh := lookup_takenNames_eq_none given
      have once' : ((seen ++ [key]).map (Pattern.outputName pattern · target)).Nodup := by
        rw [List.map_append, List.map_singleton, List.nodup_append]
        refine ⟨once, List.nodup_singleton _, fun name mem last mem' same => fresh ?_⟩
        rwa [← List.mem_singleton.mp mem', ← same]
      have clash := ih (seen ++ [key]) once' h
      rwa [List.append_assoc] at clash

/-- Renaming a mapping of texts either gives every key a name of its own, or fails at the first key
for which there is none. -/
theorem rename_ofTexts (pattern target : String) (rows : List (String × Value)) :
    if (rows.map fun row => Pattern.outputName pattern row.1 target).Nodup then
      rename pattern target (ofTexts rows) =
        .ok (ofTexts (rows.map fun row => (Pattern.outputName pattern row.1 target, row.2)))
    else ∃ source key,
      FirstClash (Pattern.outputName pattern · target) (rows.map (·.1)) source key ∧
        rename pattern target (ofTexts rows) =
          .error (.sameName source key (Pattern.outputName pattern key target)) := by
  cases renamed : rename pattern target (ofTexts rows) with
  | ok named =>
    obtain ⟨rfl, distinct, -⟩ := renameFrom_ofTexts renamed
    rw [if_pos distinct]
    rfl
  | error fault =>
    obtain ⟨source, key, clash, rfl⟩ := firstClash_of_renameFrom [] List.nodup_nil renamed
    have double : ¬(rows.map fun row => Pattern.outputName pattern row.1 target).Nodup := by
      have double := clash.not_nodup
      rwa [List.nil_append, List.map_map] at double
    rw [if_neg double]
    exact ⟨source, key, clash, rfl⟩

/-! ## Applying an action to every value -/

/-- What became of the values of a mapping stands under their keys. -/
theorem mapValues_ofTexts {action : Value → Action Value} {rows : List (String × Value)}
    {entries : Mapping} {w w' : World}
    (h : ((ofTexts rows).mapValues action).on w = (.ok entries, w')) :
    ∃ rows', entries = ofTexts rows' ∧ List.Forall₂ (fun row row' => row'.1 = row.1 ∧
      ∃ u u', (action row.2).on u = (.ok row'.2, u')) rows rows' := by
  induction rows generalizing entries w with
  | nil =>
    cases h
    exact ⟨[], rfl, .nil⟩
  | cons first rest ih =>
    rw [ofTexts_cons, mapValues] at h
    obtain ⟨v, mid, ran, h⟩ := Action.on_bind_eq_ok.mp h
    obtain ⟨more, last, others, h⟩ := Action.on_bind_eq_ok.mp h
    cases h
    obtain ⟨rows', rfl, each⟩ := ih others
    exact ⟨(first.1, v) :: rows', rfl, .cons ⟨rfl, w, mid, ran⟩ each⟩

end Mapping

end Branchwork
