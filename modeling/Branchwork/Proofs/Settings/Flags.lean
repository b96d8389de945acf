import Branchwork.Proofs.Step.Texts
import Branchwork.Settings.Flags

/-!
# Flags and options

Options are a table of names, and flags are put into it one after the other. Flags may have anything
for keys; one that is no text leaves the options without names for all of them.

Main results:

* `named?_applied` — the options with flags applied, as a table.
* `none_mem_overrideWarnings` — when a flag cannot be warned about.
-/

namespace Branchwork.Settings

/-! ## Names -/

theorem named?_nameless {key : Value} (nameless : key.isText = false) (v : Value)
    (rest : Mapping) : named? ((key, v) :: rest) = none := by
  cases key <;> first | rfl | cases nameless

theorem named?_eq_some {entries : Mapping} {rows : List (String × Value)} :
    named? entries = some rows ↔ entries = Mapping.ofTexts rows := by
  induction entries generalizing rows with
  | nil => cases rows <;> simp [named?]
  | cons entry rest ih =>
    obtain ⟨key, v⟩ := entry
    cases key with
    | text name =>
      rw [named?, Option.map_eq_some_iff]
      constructor
      · rintro ⟨rows, named, rfl⟩
        rw [ih.mp named, Mapping.ofTexts_cons]
      · intro same
        cases rows with
        | nil => cases same
        | cons row rows =>
          rw [Mapping.ofTexts_cons, List.cons.injEq] at same
          obtain ⟨first, rfl⟩ := same
          cases first
          exact ⟨rows, ih.mpr rfl, rfl⟩
    | _ =>
      rw [named?_nameless rfl]
      exact ⟨fun h => (nomatch h), fun same => by cases rows <;> cases same⟩

/-- Entries have names unless one of their keys is no text. -/
theorem named?_eq_none {entries : Mapping} :
    named? entries = none ↔ ∃ entry ∈ entries, entry.1.isText = false := by
  induction entries with
  | nil => simp [named?]
  | cons entry rest ih =>
    obtain ⟨key, v⟩ := entry
    cases key <;> simp [named?, Value.isText, ih]

theorem named?_mapping (s : Settings) : named? s.mapping = some s.dump :=
  named?_eq_some.mpr rfl

/-! ## Putting flags into options -/

theorem named?_put_text (name : String) (v : Value) (options : Mapping) :
    named? (Mapping.put (.text name) v options) = (named? options).map (Table.put name v) := by
  induction options with
  | nil => rfl
  | cons entry rest ih =>
    obtain ⟨key, old⟩ := entry
    rw [Mapping.put]
    by_cases here : key = .text name
    · rw [if_pos (Value.equals_text_iff.mpr here), here, named?, named?, Option.map_map]
      refine Option.map_congr fun rows _ => ?_
      rw [Function.comp, Table.put, if_pos rfl]
    · rw [if_neg (mt Value.equals_text_iff.mp here)]
      cases key with
      | text other =>
        rw [named?, named?, ih, Option.map_map, Option.map_map]
        refine Option.map_congr fun rows _ => ?_
        have apart : other ≠ name := fun same => here (congrArg Value.text same)
        rw [Function.comp, Function.comp, Table.put, if_neg apart]
      | _ => rfl

/-- A key that is no text finds no name to take the place of. -/
theorem named?_put_nameless {key : Value} (nameless : key.isText = false) (v : Value)
    (options : Mapping) : named? (Mapping.put key v options) = none := by
  induction options with
  | nil => exact named?_eq_none.mpr ⟨(key, v), List.mem_cons_self, nameless⟩
  | cons entry rest ih =>
    obtain ⟨k, old⟩ := entry
    rw [Mapping.put]
    cases k with
    | text name =>
      rw [if_neg fun same => ?_, named?, ih, Option.map_none]
      rw [Value.equals_of_text same] at nameless
      cases nameless
    | _ => split <;> rfl

/-- Flags with names are put into the table of the options; a flag without a name leaves no table. -/
theorem named?_applied (options flags : Mapping) :
    named? (applied options flags) =
      (named? options).bind fun rows => (named? flags).map (Table.putAll rows) := by
  induction flags generalizing options with
  | nil =>
    rw [applied, List.foldl_nil]
    cases named? options <;> rfl
  | cons flag rest ih =>
    obtain ⟨key, v⟩ := flag
    rw [applied, List.foldl_cons]
    refine (ih _).trans ?_
    cases key with
    | text name =>
      rw [named?_put_text, named?]
      cases named? options with
      | none => rfl
      | some rows => cases named? rest <;> rfl
    | _ =>
      rw [named?_put_nameless rfl]
      cases named? options <;> rfl

/-! ## Warnings -/

theorem overrideWarning_eq_none {key old new : Value} :
    overrideWarning key old new = none ↔
      key.isOverlong = true ∨ old.isOverlong = true ∨ new.isOverlong = true := by
  unfold overrideWarning Value.plain?
  cases key.isOverlong <;> cases old.isOverlong <;> cases new.isOverlong <;> simp

/-- A flag takes the place of a value, and its name or one of the two values is too long to be
written. -/
def Unwritable (options flags : Mapping) : Prop :=
  ∃ before key new behind old, flags = before ++ (key, new) :: behind ∧
    Mapping.get? key (applied options before) = some old ∧ old ≠ .null ∧
    (key.isOverlong = true ∨ old.isOverlong = true ∨ new.isOverlong = true)

theorem none_mem_overrideWarnings {options flags : Mapping} :
    none ∈ overrideWarnings options flags ↔ Unwritable options flags := by
  unfold Unwritable
  simp only [← overrideWarning_eq_none]
  induction flags generalizing options with
  | nil => simp [overrideWarnings]
  | cons flag rest ih =>
    obtain ⟨key, v⟩ := flag
    rw [overrideWarnings, List.mem_append, ih]
    constructor
    · rintro (here | ⟨before, key', new, behind, old, rfl, found, later⟩)
      · -- the first flag is the one
        split at here
        · cases here
        · cases here
        · rename_i old notNull found
          refine ⟨[], key, v, rest, old, rfl, found, ?_, (List.mem_singleton.mp here).symm⟩
          exact fun same => notNull same
      · exact ⟨(key, v) :: before, key', new, behind, old, rfl, found, later⟩
    · rintro ⟨before, key', new, behind, old, split, found, notNull, unwritable⟩
      cases before with
      | nil =>
        cases split
        left
        rw [show Mapping.get? key options = some old from found]
        cases old <;> first | exact absurd rfl notNull | exact List.mem_singleton.mpr unwritable.symm
      | cons first before =>
        cases split
        exact .inr ⟨before, key', new, behind, old, rfl, found, notNull, unwritable⟩

end Branchwork.Settings
