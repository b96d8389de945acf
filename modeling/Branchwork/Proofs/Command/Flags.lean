import Branchwork.Command.Flag
import Branchwork.Proofs.Settings.Flags
import Branchwork.Proofs.Text.Blank

/-!
# Flags as they are written

A flag is written as a key and a value with the first `=` between them. The flags of a command line are
read one after the other: they give a table that has each key where it is written first, with the value
that is written last, or the first flag that gives no value is refused.

A flag without `=` is refused as one that is badly written. A value that is no YAML is refused with what
is wrong with the YAML, and nothing tells then that a flag was badly written.

Main results:

* `readFlag_eq_ok_iff`, `readFlag_eq_error_iff` — one flag.
* `readFlags_gives_or_refuses` — all flags of a command line.
-/

namespace Branchwork.Command

/-! ## One flag -/

/-- A flag is written with a key in front of the first `=` and a value behind it. -/
structure IsWritten (flag : String) (key value : List Char) : Prop where
  text : flag.toList = key ++ '=' :: value
  first : '=' ∉ key

/-- What is written stands for a value: nothing for the empty text, and everything else for what it is
as YAML. -/
inductive Stands : List Char → Value → Prop
  | nothing : Stands [] (.text "")
  | yaml {written v} : written ≠ [] → Yaml.load (String.ofList written) = .ok v → Stands written v

/-- A flag gives a value under a key. Blanks around the key do not count. -/
inductive Gives (flag : String) : String × Value → Prop
  | row {key written v} : IsWritten flag key written → Stands written v →
      Gives flag (String.ofList (Text.trim key), v)

/-- Why a flag gives no value: there is no `=`, or what is written is no YAML. -/
inductive Refused (flag : String) : Fault → Prop
  | keyless : '=' ∉ flag.toList → Refused flag (.badFlag flag)
  | valueless {key written problem} : IsWritten flag key written → written ≠ [] →
      Yaml.load (String.ofList written) = .error problem → Refused flag (.yaml problem)

theorem isWritten_or (flag : String) :
    (∃ key written, IsWritten flag key written) ∨ '=' ∉ flag.toList := by
  by_cases mem : '=' ∈ flag.toList
  · obtain ⟨key, written, text, first⟩ := List.eq_append_cons_of_mem mem
    exact .inl ⟨key, written, text, first⟩
  · exact .inr mem

theorem readFlag_of_isWritten {flag : String} {key written : List Char}
    (isWritten : IsWritten flag key written) : readFlag flag =
      (flagValue written).map fun v => (String.ofList (Text.trim key), v) := by
  have inKey : ∀ c ∈ key, decide (c ≠ '=') = true := fun c mem =>
    decide_eq_true fun same => isWritten.first (same ▸ mem)
  have ends : ∀ c ∈ ('=' :: written).head?, decide (c ≠ '=') = false := by simp
  rw [readFlag, isWritten.text, Text.takeWhile_run inKey ends, Text.dropWhile_run inKey ends]

theorem readFlag_of_keyless {flag : String} (keyless : '=' ∉ flag.toList) :
    readFlag flag = .error (.badFlag flag) := by
  have all : flag.toList.dropWhile (fun c => decide (c ≠ '=')) = [] :=
    List.dropWhile_eq_nil_iff.mpr fun c mem => decide_eq_true fun same => keyless (same ▸ mem)
  rw [readFlag, all]

theorem flagValue_eq_ok_iff {written : List Char} {v : Value} :
    flagValue written = .ok v ↔ Stands written v := by
  unfold flagValue
  cases written with
  | nil =>
    rw [if_pos List.isEmpty_nil]
    constructor
    · rintro ⟨⟩
      exact .nothing
    · intro stands
      cases stands with
      | nothing => rfl
      | yaml ne => exact absurd rfl ne
  | cons c rest =>
    rw [if_neg nofun, mapError_eq_ok]
    constructor
    · exact .yaml (List.cons_ne_nil c rest)
    · intro stands
      cases stands with
      | yaml _ loaded => exact loaded

theorem flagValue_eq_error_iff {written : List Char} {fault : Fault} :
    flagValue written = .error fault ↔ written ≠ [] ∧
      ∃ problem, Yaml.load (String.ofList written) = .error problem ∧ Fault.yaml problem = fault := by
  unfold flagValue
  cases written with
  | nil => simp
  | cons c rest => rw [if_neg nofun, mapError_eq_error, and_iff_right (List.cons_ne_nil c rest)]

theorem readFlag_eq_ok_iff {flag : String} {row : String × Value} :
    readFlag flag = .ok row ↔ Gives flag row := by
  constructor
  · intro h
    rcases isWritten_or flag with ⟨key, written, isWritten⟩ | keyless
    · rw [readFlag_of_isWritten isWritten, map_eq_ok] at h
      obtain ⟨v, read, rfl⟩ := h
      exact .row isWritten (flagValue_eq_ok_iff.mp read)
    · rw [readFlag_of_keyless keyless] at h
      cases h
  · rintro ⟨isWritten, stands⟩
    rw [readFlag_of_isWritten isWritten, flagValue_eq_ok_iff.mpr stands]
    rfl

theorem readFlag_eq_error_iff {flag : String} {fault : Fault} :
    readFlag flag = .error fault ↔ Refused flag fault := by
  constructor
  · intro h
    rcases isWritten_or flag with ⟨key, written, isWritten⟩ | keyless
    · rw [readFlag_of_isWritten isWritten, map_eq_error, flagValue_eq_error_iff] at h
      obtain ⟨ne, problem, unread, rfl⟩ := h
      exact .valueless isWritten ne unread
    · rw [readFlag_of_keyless keyless] at h
      cases h
      exact .keyless keyless
  · intro refused
    cases refused with
    | keyless keyless => exact readFlag_of_keyless keyless
    | valueless isWritten ne unread =>
      rw [readFlag_of_isWritten isWritten, map_eq_error, flagValue_eq_error_iff]
      exact ⟨ne, _, unread, rfl⟩

/-! ## All flags -/

/-- Flags are read in order and put into a mapping in order. -/
theorem readFlagsBehind_eq (read : Mapping) (flags : List String) :
    readFlagsBehind read flags =
      (flags.mapM readFlag).map fun given => Settings.applied read (Mapping.ofTexts given) := by
  induction flags generalizing read with
  | nil => rfl
  | cons flag rest ih =>
    rw [readFlagsBehind, List.mapM_cons]
    cases readFlag flag with
    | error fault => rfl
    | ok row =>
      refine (ih _).trans ?_
      cases rest.mapM readFlag <;> rfl

theorem named?_flags {given : List (String × Value)} :
    Settings.named? (Settings.applied [] (Mapping.ofTexts given)) =
      some (Table.putAll [] given) := by
  have named : Settings.named? (Mapping.ofTexts given) = some given :=
    Settings.named?_eq_some.mpr rfl
  rw [Settings.named?_applied, named]
  rfl

theorem readFlags_eq (flags : List String) : readFlags flags =
    (flags.mapM readFlag).map fun given => Mapping.ofTexts (Table.putAll [] given) := by
  rw [readFlags, readFlagsBehind_eq]
  congr 1
  funext given
  exact Settings.named?_eq_some.mp named?_flags

theorem kind_yaml_ne (problem : Yaml.Problem) : (Fault.yaml problem).kind ≠ "BadParameter" := by
  rw [Fault.kind]
  cases problem with
  | charCode code =>
    rw [Yaml.Problem.kind]
    split <;> decide
  | _ => simp [Yaml.Problem.kind]

/-- The word for a badly written flag is for flags without `=` only. -/
theorem Refused.kind_iff {flag : String} {fault : Fault} (refused : Refused flag fault) :
    fault.kind = "BadParameter" ↔ '=' ∉ flag.toList := by
  cases refused with
  | keyless keyless => exact iff_of_true rfl keyless
  | @valueless key written problem isWritten =>
    refine iff_of_false (kind_yaml_ne problem) fun keyless => keyless ?_
    rw [isWritten.text]
    exact List.mem_append_right _ List.mem_cons_self

/-- Flags that all give a value make a table with each key in the place where it is given first and with
the value that is given last. Otherwise the first flag that gives none is refused, with the word for a
badly written flag exactly if it has no `=`. -/
theorem readFlags_gives_or_refuses (flags : List String) :
    (∀ read, readFlags flags = .ok read ↔ ∃ given table, List.Forall₂ Gives flags given ∧
      Table.KeepsLast given table ∧ read = Mapping.ofTexts table) ∧
    (∀ fault, readFlags flags = .error fault ↔ ∃ before flag after, flags = before ++ flag :: after ∧
      (∀ earlier ∈ before, ∃ row, Gives earlier row) ∧ Refused flag fault) ∧
    ∀ flag fault, Refused flag fault ∧ fault.kind = "BadParameter" ↔
      fault = .badFlag flag ∧ '=' ∉ flag.toList := by
  refine ⟨fun read => ?_, fun fault => ?_, fun flag fault => ?_⟩
  · rw [readFlags_eq, map_eq_ok]
    simp only [mapM_eq_ok, readFlag_eq_ok_iff, Table.keepsLast_iff]
    constructor
    · rintro ⟨given, all, rfl⟩
      exact ⟨given, _, all, rfl, rfl⟩
    · rintro ⟨given, table, all, rfl, rfl⟩
      exact ⟨given, all, rfl⟩
  · rw [readFlags_eq, map_eq_error, mapM_eq_error_iff]
    simp only [readFlag_eq_ok_iff, readFlag_eq_error_iff]
  · constructor
    · rintro ⟨refused, kind⟩
      have keyless := refused.kind_iff.mp kind
      cases refused with
      | keyless => exact ⟨rfl, keyless⟩
      | valueless isWritten =>
        exact absurd (isWritten.text ▸ List.mem_append_right _ List.mem_cons_self) keyless
    · rintro ⟨rfl, keyless⟩
      exact ⟨.keyless keyless, rfl⟩

/-- A list that is not closed. -/
example : (faultOf (readFlags ["a=1", "b=[", "c"])).map Fault.kind = some "YAMLError" ∧
    (faultOf (readFlags ["a=1", "c", "b=["])).map Fault.kind = some "BadParameter" := by
  decide +kernel

end Branchwork.Command
