import Mathlib.Data.List.Induction
import Mathlib.Data.List.Perm.Subperm

/-!
# Tables

A table is a list of keys with their values; the first entry with a key counts. `Table.put` puts a
value under a key the way all tables here do it: a key that is there keeps its place. So a table that is
filled has each key where it was given first, with the value that was given last (`Table.KeepsLast`).
-/

namespace Branchwork

variable {κ α : Type} [BEq κ] [LawfulBEq κ] [DecidableEq κ]

theorem lookup_cons_if (key other : κ) (value : α) (rest : List (κ × α)) :
    ((key, value) :: rest).lookup other = if other = key then some value else rest.lookup other := by
  rw [List.lookup_cons]
  by_cases same : other = key
  · rw [if_pos same, same, beq_self_eq_true]
  · rw [if_neg same, beq_false_of_ne same]

/-- A key has a value exactly if it is among the keys of the table. -/
theorem lookup_isSome_iff (table : List (κ × α)) (key : κ) :
    (table.lookup key).isSome ↔ key ∈ table.map (·.1) := by
  induction table with
  | nil => simp
  | cons entry rest ih =>
    obtain ⟨k, value⟩ := entry
    rw [lookup_cons_if, List.map_cons, List.mem_cons]
    by_cases same : key = k
    · simp [same]
    · rw [if_neg same, ih]
      simp [same]

theorem lookup_eq_none_iff_fresh {table : List (κ × α)} {key : κ} :
    table.lookup key = none ↔ key ∉ table.map (·.1) := by
  rw [← Option.not_isSome_iff_eq_none, lookup_isSome_iff]

/-- The order of a table decides what a key has, not whether it has a value. -/
theorem lookup_reverse_isSome_iff (table : List (κ × α)) (key : κ) :
    (table.reverse.lookup key).isSome ↔ key ∈ table.map (·.1) := by
  rw [lookup_isSome_iff, List.map_reverse, List.mem_reverse]

theorem lookup_reverse_eq_none_iff {table : List (κ × α)} {key : κ} :
    table.reverse.lookup key = none ↔ key ∉ table.map (·.1) := by
  rw [← Option.not_isSome_iff_eq_none, lookup_reverse_isSome_iff]

/-- In a table with each key once every entry counts. -/
theorem lookup_eq_some_iff {table : List (κ × α)} (once : (table.map (·.1)).Nodup) {key : κ}
    {value : α} : table.lookup key = some value ↔ (key, value) ∈ table := by
  induction table with
  | nil => simp
  | cons entry rest ih =>
    obtain ⟨k, v⟩ := entry
    obtain ⟨fresh, once⟩ := List.nodup_cons.mp once
    rw [lookup_cons_if, List.mem_cons]
    by_cases same : key = k
    · rw [if_pos same, same]
      constructor
      · rintro ⟨⟩
        exact .inl rfl
      · rintro (here | later)
        · cases here
          rfl
        · exact absurd (List.mem_map_of_mem later) fresh
    · rw [if_neg same, ih once]
      simp [same]

omit [DecidableEq κ] in
/-- A key that is put last, unless it is there already, leaves every key once. -/
theorem nodup_putLast {key : κ} {keys : List κ} (once : keys.Nodup) :
    (if key ∈ keys then keys else keys ++ [key]).Nodup := by
  split
  · exact once
  · rename_i fresh
    refine List.nodup_append.mpr ⟨once, by simp, fun other mem last mem' same => ?_⟩
    rw [List.mem_singleton.mp mem'] at same
    exact fresh (same ▸ mem)

omit [DecidableEq κ] in
/-- A list with each of its keys at its first place: a further key comes last, unless it is there. -/
theorem eraseDups_putLast (keys : List κ) (key : κ) :
    (keys ++ [key]).eraseDups =
      if key ∈ keys.eraseDups then keys.eraseDups else keys.eraseDups ++ [key] := by
  rw [List.eraseDups_append, List.removeAll]
  by_cases old : key ∈ keys
  · rw [if_pos (List.mem_eraseDups.mpr old)]
    simp [old]
  · rw [if_neg (mt List.mem_eraseDups.mp old)]
    simp [old, List.eraseDups_cons]

omit [DecidableEq κ] in
theorem nodup_eraseDups (keys : List κ) : keys.eraseDups.Nodup := by
  induction keys using List.reverseRecOn with
  | nil => exact List.nodup_nil
  | append_singleton keys key ih =>
    rw [eraseDups_putLast]
    exact nodup_putLast ih

omit [DecidableEq κ] in
theorem eraseDups_of_nodup {keys : List κ} (once : keys.Nodup) : keys.eraseDups = keys := by
  induction keys using List.reverseRecOn with
  | nil => rfl
  | append_singleton keys key ih =>
    obtain ⟨once, -, apart⟩ := List.nodup_append.mp once
    have fresh : key ∉ keys := fun old => apart key old key (List.mem_singleton_self key) rfl
    rw [eraseDups_putLast, ih once, if_neg fresh]

omit [DecidableEq κ] in
theorem length_eraseDups_eq_iff {keys : List κ} :
    keys.eraseDups.length = keys.length ↔ keys.Nodup := by
  constructor
  · intro same
    have inside : keys.eraseDups.Subperm keys :=
      List.subperm_of_subset (nodup_eraseDups keys) fun _ mem => List.mem_eraseDups.mp mem
    exact (inside.perm_of_length_le (Nat.le_of_eq same.symm)).nodup_iff.mp (nodup_eraseDups keys)
  · intro once
    rw [eraseDups_of_nodup once]

/-- Two tables with the same keys, each once, and the same values are one table. -/
theorem table_ext {xs ys : List (κ × α)} (keys : xs.map (·.1) = ys.map (·.1))
    (once : (xs.map (·.1)).Nodup) (values : ∀ key, xs.lookup key = ys.lookup key) : xs = ys := by
  induction xs generalizing ys with
  | nil =>
    rw [List.map_nil] at keys
    exact (List.map_eq_nil_iff.mp keys.symm).symm
  | cons entry rest ih =>
    obtain ⟨key, value⟩ := entry
    cases ys with
    | nil => cases keys
    | cons entry' rest' =>
      obtain ⟨key', value'⟩ := entry'
      rw [List.map_cons, List.map_cons, List.cons.injEq] at keys
      obtain ⟨rfl, keys⟩ := keys
      obtain ⟨fresh, once⟩ := List.nodup_cons.mp once
      have first := values key
      rw [lookup_cons_if, lookup_cons_if, if_pos rfl, if_pos rfl] at first
      cases first
      refine congrArg _ (ih keys once fun other => ?_)
      by_cases same : other = key
      · -- the key comes in neither of the rests
        rw [same, lookup_eq_none_iff_fresh.mpr fresh, lookup_eq_none_iff_fresh.mpr (keys ▸ fresh)]
      · have later := values other
        rwa [lookup_cons_if, lookup_cons_if, if_neg same, if_neg same] at later

/-! ## Putting values -/

omit [BEq κ] [LawfulBEq κ] in
/-- The table with a value put under a key. A new key comes last. -/
def Table.put (key : κ) (value : α) : List (κ × α) → List (κ × α)
  | [] => [(key, value)]
  | (k, v) :: rest => if k = key then (k, value) :: rest else (k, v) :: Table.put key value rest

theorem lookup_put (key other : κ) (value : α) (table : List (κ × α)) :
    (Table.put key value table).lookup other =
      if other = key then some value else table.lookup other := by
  induction table with
  | nil => rw [Table.put, lookup_cons_if]
  | cons entry rest ih =>
    obtain ⟨k, v⟩ := entry
    rw [Table.put]
    by_cases here : k = key
    · rw [if_pos here, here, lookup_cons_if, lookup_cons_if]
      by_cases same : other = key
      · rw [if_pos same, if_pos same]
      · rw [if_neg same, if_neg same, if_neg same]
    · rw [if_neg here, lookup_cons_if, lookup_cons_if, ih]
      -- the key is not that of the first entry
      by_cases same : other = k
      · rw [if_pos same, if_pos same, if_neg (same ▸ here)]
      · rw [if_neg same, if_neg same]

theorem keys_put (key : κ) (value : α) (table : List (κ × α)) :
    (Table.put key value table).map (·.1) =
      if key ∈ table.map (·.1) then table.map (·.1) else table.map (·.1) ++ [key] := by
  induction table with
  | nil => rfl
  | cons entry rest ih =>
    obtain ⟨k, v⟩ := entry
    rw [Table.put]
    by_cases here : k = key
    · rw [if_pos here, here, if_pos (List.mem_map_of_mem List.mem_cons_self)]
      rfl
    · rw [if_neg here, List.map_cons, ih]
      simp only [List.map_cons, List.mem_cons, Ne.symm here, false_or]
      split <;> rfl

omit [BEq κ] [LawfulBEq κ] in
/-- The table with values put under keys in order. -/
def Table.putAll (table given : List (κ × α)) : List (κ × α) :=
  given.foldl (fun table entry => Table.put entry.1 entry.2 table) table

/-- Of the values that are put under a key the last one counts. -/
theorem lookup_putAll (table given : List (κ × α)) (key : κ) :
    (Table.putAll table given).lookup key = (given.reverse.lookup key).or (table.lookup key) := by
  induction given generalizing table with
  | nil => rfl
  | cons entry rest ih =>
    obtain ⟨k, value⟩ := entry
    rw [Table.putAll, List.foldl_cons]
    refine (ih _).trans ?_
    rw [lookup_put, List.reverse_cons, List.lookup_append, Option.or_assoc, lookup_cons_if]
    by_cases same : key = k
    · rw [if_pos same, if_pos same]
      rfl
    · rw [if_neg same, if_neg same]
      rfl

theorem keys_putAll (given : List (κ × α)) :
    (Table.putAll [] given).map (·.1) = (given.map (·.1)).eraseDups := by
  induction given using List.reverseRecOn with
  | nil => rfl
  | append_singleton given entry ih =>
    rw [Table.putAll, List.foldl_append, List.foldl_cons, List.foldl_nil, keys_put, List.map_append]
    rw [Table.putAll] at ih
    rw [ih]
    exact (eraseDups_putLast _ _).symm

theorem Table.putAll_eq_nil_iff {given : List (κ × α)} :
    Table.putAll [] given = [] ↔ given = [] := by
  rw [← List.map_eq_nil_iff (f := (·.1)), keys_putAll]
  cases given <;> simp [List.eraseDups_cons]

/-! ## Filling in several goes -/

namespace Table

omit [BEq κ] [LawfulBEq κ] in
theorem putAll_cons (table rest : List (κ × α)) (key : κ) (value : α) :
    putAll table ((key, value) :: rest) = putAll (put key value table) rest := rfl

omit [BEq κ] [LawfulBEq κ] in
theorem putAll_append (table given more : List (κ × α)) :
    putAll table (given ++ more) = putAll (putAll table given) more := List.foldl_append

omit [BEq κ] [LawfulBEq κ] in
/-- Of two values for one key only the second one counts. -/
theorem put_put (key : κ) (first second : α) (table : List (κ × α)) :
    put key second (put key first table) = put key second table := by
  induction table with
  | nil => rw [put, put, put, if_pos rfl]
  | cons entry rest ih =>
    obtain ⟨k, v⟩ := entry
    rw [put, put]
    by_cases here : k = key
    · rw [if_pos here, if_pos here, put, if_pos here]
    · rw [if_neg here, if_neg here, put, if_neg here, ih]

omit [BEq κ] [LawfulBEq κ] in
/-- A key that is there already can be given its value before or after another key. -/
theorem put_comm {key other : κ} (apart : other ≠ key) (value value' : α) {table : List (κ × α)}
    (there : key ∈ table.map (·.1)) :
    put key value (put other value' table) = put other value' (put key value table) := by
  induction table with
  | nil => cases there
  | cons entry rest ih =>
    obtain ⟨k, v⟩ := entry
    rw [put, put]
    by_cases here : k = key
    · subst here
      rw [if_pos rfl, if_neg apart.symm, put, if_pos rfl, put, if_neg apart.symm]
    · have later : key ∈ rest.map (·.1) := (List.mem_cons.mp there).resolve_left (Ne.symm here)
      rw [if_neg here]
      by_cases isOther : k = other
      · rw [if_pos isOther, put, if_neg here, put, if_pos isOther]
      · rw [if_neg isOther, put, if_neg here, ih later, put, if_neg isOther]

theorem mem_keys_put (key other : κ) (value : α) {table : List (κ × α)}
    (there : key ∈ table.map (·.1)) : key ∈ (put other value table).map (·.1) := by
  rw [keys_put]
  split
  · exact there
  · exact List.mem_append_left _ there

/-- A key that is there already, and is not among those given, can be given its value last. -/
theorem put_putAll {key : κ} (value : α) {table given : List (κ × α)}
    (there : key ∈ table.map (·.1)) (apart : key ∉ given.map (·.1)) :
    put key value (putAll table given) = putAll (put key value table) given := by
  induction given generalizing table with
  | nil => rfl
  | cons entry rest ih =>
    obtain ⟨k, v⟩ := entry
    rw [List.map_cons, List.mem_cons, not_or] at apart
    rw [putAll_cons, putAll_cons, ih (mem_keys_put key k v there) apart.2,
      put_comm (Ne.symm apart.1) value v there]

/-- What is put into a table that is then put into another one may as well be put there afterwards. -/
theorem putAll_put (key : κ) (value : α) (table : List (κ × α)) {given : List (κ × α)}
    (once : (given.map (·.1)).Nodup) :
    putAll table (put key value given) = put key value (putAll table given) := by
  induction given generalizing table with
  | nil => rfl
  | cons entry rest ih =>
    obtain ⟨k, v⟩ := entry
    obtain ⟨fresh, once⟩ := List.nodup_cons.mp once
    rw [put]
    by_cases here : k = key
    · subst here
      have there : k ∈ (put k v table).map (·.1) := by
        rw [keys_put]
        split
        · assumption
        · exact List.mem_append_right _ (List.mem_singleton_self k)
      rw [if_pos rfl, putAll_cons, putAll_cons, put_putAll value there fresh, put_put]
    · rw [if_neg here, putAll_cons, putAll_cons, ih _ once]

/-- Values that are put in order may be gathered in a table of their own first. -/
theorem putAll_putAll (table given : List (κ × α)) :
    putAll table (putAll [] given) = putAll table given := by
  induction given using List.reverseRecOn with
  | nil => rfl
  | append_singleton given entry ih =>
    have once : ((putAll [] given).map (·.1)).Nodup := keys_putAll given ▸ nodup_eraseDups _
    rw [putAll_append, putAll_append, ← ih]
    exact putAll_put entry.1 entry.2 table once

omit [BEq κ] [LawfulBEq κ] in
/-- Entries may be left out by their keys before or after a value is put. -/
theorem filter_put (keep : κ → Bool) (key : κ) (value : α) (table : List (κ × α)) :
    (put key value table).filter (fun entry => keep entry.1) =
      if keep key then put key value (table.filter fun entry => keep entry.1)
      else table.filter fun entry => keep entry.1 := by
  induction table with
  | nil => rw [put, List.filter_cons]; simp [put]
  | cons entry rest ih =>
    obtain ⟨k, v⟩ := entry
    rw [put]
    by_cases here : k = key
    · subst here
      rw [if_pos rfl]
      by_cases kept : keep k <;> simp [kept, put]
    · rw [if_neg here, List.filter_cons, ih, List.filter_cons]
      by_cases kept : keep k <;> by_cases kept' : keep key <;> simp [kept, kept', put, here]

omit [BEq κ] [LawfulBEq κ] in
theorem filter_putAll (keep : κ → Bool) (table given : List (κ × α)) :
    (putAll table given).filter (fun entry => keep entry.1) =
      putAll (table.filter fun entry => keep entry.1) (given.filter fun entry => keep entry.1) := by
  induction given generalizing table with
  | nil => rfl
  | cons entry rest ih =>
    obtain ⟨k, v⟩ := entry
    rw [putAll_cons, ih, filter_put, List.filter_cons]
    by_cases kept : keep k <;> simp [kept, putAll_cons]

end Table

/-! ## The last value of each key -/

omit [DecidableEq κ] in
theorem lookup_reverse_eq_some_iff {given : List (κ × α)} {key : κ} {value : α} :
    given.reverse.lookup key = some value ↔
      ∃ before after, given = before ++ (key, value) :: after ∧ key ∉ after.map (·.1) := by
  rw [List.lookup_eq_some_iff]
  constructor
  · -- what stands in front of the entry in reverse stands behind it
    rintro ⟨after, before, split, others⟩
    refine ⟨before.reverse, after.reverse, ?_, fun mem => ?_⟩
    · rw [← List.reverse_reverse given, split]
      simp
    · obtain ⟨entry, mem, same⟩ := List.mem_map.mp mem
      simpa [same] using others entry (List.mem_reverse.mp mem)
  · rintro ⟨before, after, rfl, others⟩
    refine ⟨after.reverse, before.reverse, by simp, fun entry mem => ?_⟩
    rw [bne_iff_ne]
    rintro rfl
    exact others (List.mem_map_of_mem (List.mem_reverse.mp mem))

namespace Table

omit [LawfulBEq κ] [DecidableEq κ] in
/-- A table with each of the given keys once, where it is given first, and with the value that is given
last for it. -/
structure KeepsLast (given table : List (κ × α)) : Prop where
  keys : table.map (·.1) = (given.map (·.1)).eraseDups
  last : ∀ entry ∈ table, ∃ before after, given = before ++ entry :: after ∧
    entry.1 ∉ after.map (·.1)

variable {given table : List (κ × α)}

omit [DecidableEq κ] in
theorem KeepsLast.once (h : KeepsLast given table) : (table.map (·.1)).Nodup :=
  h.keys ▸ nodup_eraseDups _

theorem KeepsLast.lookup_eq (h : KeepsLast given table) (key : κ) :
    table.lookup key = given.reverse.lookup key := by
  cases found : table.lookup key with
  | some value =>
    have entry := (lookup_eq_some_iff h.once).mp found
    exact (lookup_reverse_eq_some_iff.mpr (h.last _ entry)).symm
  | none =>
    symm
    rw [lookup_eq_none_iff_fresh] at found ⊢
    rwa [h.keys, List.mem_eraseDups, ← List.mem_reverse, ← List.map_reverse] at found

theorem keepsLast_putAll (given : List (κ × α)) : KeepsLast given (putAll [] given) := by
  refine ⟨keys_putAll given, fun entry mem => lookup_reverse_eq_some_iff.mp ?_⟩
  have once : ((putAll [] given).map (·.1)).Nodup := keys_putAll given ▸ nodup_eraseDups _
  have found := (lookup_eq_some_iff once).mpr mem
  rwa [lookup_putAll, List.lookup_nil, Option.or_none] at found

/-- There is one such table: the one that is filled with the values in order. -/
theorem keepsLast_iff : KeepsLast given table ↔ table = putAll [] given := by
  constructor
  · intro h
    have filled := keepsLast_putAll given
    -- the keys are the same, in the same order, and under each key is what was given last
    refine table_ext (h.keys.trans filled.keys.symm) h.once fun key => ?_
    rw [h.lookup_eq, filled.lookup_eq]
  · rintro rfl
    exact keepsLast_putAll given

omit [DecidableEq κ] in
/-- Every value is kept exactly if no key is given twice. -/
theorem KeepsLast.length_eq_iff (h : KeepsLast given table) :
    table.length = given.length ↔ (given.map (·.1)).Nodup := by
  rw [← length_eraseDups_eq_iff, ← h.keys, List.length_map, List.length_map]

theorem KeepsLast.eq_of_nodup (h : KeepsLast given table) (once : (given.map (·.1)).Nodup) :
    table = given := by
  refine table_ext (h.keys.trans (eraseDups_of_nodup once)) h.once fun key => ?_
  rw [h.lookup_eq]
  -- no key is given twice, so every entry counts in either direction
  refine Option.ext fun value => ?_
  rw [lookup_eq_some_iff once, ← List.mem_reverse,
    lookup_eq_some_iff (((List.reverse_perm given).map _).nodup_iff.mpr once)]

end Table

end Branchwork
