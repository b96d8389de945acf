import Branchwork.Proofs.Table
import Branchwork.Stage.Registry
import Mathlib.Data.List.Induction

/-!
# Histories of registries

Registries are filled, copied and looked into in any order. What a registry answers is decided by its
history alone: the registrations made in it, behind those that its source had when it was copied.

Main results:

* `Catalogue.registry_run` — after any acts a registry holds what its history registers.
* `Catalogue.answers_of_history` — what it answers, said in terms of the history, and that an act
  leaves all other registries alone.
-/

namespace Branchwork

variable {σ : Type}

/-! ## One registry -/

namespace Registry

theorem putEntry_eq (name : String) (stage : σ) (entries : List (String × σ)) :
    putEntry name stage entries = Table.put name stage entries := by
  induction entries with
  | nil => rfl
  | cons entry rest ih => rw [putEntry, Table.put, ih]

/-- The registrations made in a registry, the first one first. -/
abbrev History (σ : Type) := List (String × σ)

namespace History

/-- The last registration of a name is that of a stage. -/
def Latest (history : History σ) (name : String) (stage : σ) : Prop :=
  ∃ before behind, history = before ++ (name, stage) :: behind ∧ name ∉ behind.map (·.1)

theorem ofList_concat (history : History σ) (name : String) (stage : σ) :
    ofList (history ++ [(name, stage)]) = (ofList history).register name stage :=
  List.foldl_append

/-- A registry is filled with the registrations in order. -/
theorem entries_eq (history : History σ) :
    (ofList history).entries = Table.putAll [] history := by
  induction history using List.reverseRecOn with
  | nil => rfl
  | append_singleton history last ih =>
    rw [ofList_concat, register, putEntry_eq, ih, Table.putAll, Table.putAll, List.foldl_concat]

/-- A name stands for the stage that it was registered for last. -/
theorem lookup_eq_some (history : History σ) (name : String) (stage : σ) :
    (ofList history).entries.lookup name = some stage ↔ history.Latest name stage := by
  rw [entries_eq, lookup_putAll, List.lookup_nil, Option.or_none]
  exact lookup_reverse_eq_some_iff

/-- A name that is there already keeps its place, a new one comes last. -/
theorem names_eq (history : History σ) :
    (ofList history).names = (history.map (·.1)).eraseDups := by
  rw [names, entries_eq, keys_putAll]

theorem nodup_names (history : History σ) : (ofList history).names.Nodup :=
  names_eq history ▸ nodup_eraseDups _

theorem mem_names (history : History σ) (name : String) :
    name ∈ (ofList history).names ↔ name ∈ history.map (·.1) := by
  rw [names_eq, List.mem_eraseDups]

theorem isRegistered_iff (history : History σ) (name : String) :
    (ofList history).isRegistered name ↔ name ∈ history.map (·.1) := by
  rw [← mem_names, isRegistered, lookup_isSome_iff, names]

end History

end Registry

/-! ## Many registries -/

namespace Catalogue

open Registry (History)

/-- What is done with registries. -/
inductive Act (σ : Type) where
  | register (registry name : String) (stage : σ)
  | copy (source target : String)
  | lookup (registry name : String)

/-- The registry that an act is made in or that it makes, if it leaves anything. -/
def Act.changed? : Act σ → Option String
  | .register registry _ _ => some registry
  | .copy _ target => some target
  | .lookup _ _ => none

/-- The registries behind an act. -/
def after (c : Catalogue σ) : Act σ → Catalogue σ
  | .register registry name stage => c.register registry name stage
  | .copy source target => c.copy source target
  | .lookup _ _ => c

/-- The registries behind acts, where none was there before. -/
def run (acts : List (Act σ)) : Catalogue σ := acts.foldl after ⟨[], []⟩

/-- The histories behind an act. A copy begins with the history of its source and has one of its own
from then on. -/
def noted (histories : String → History σ) : Act σ → String → History σ
  | .register registry name stage, r =>
    if r = registry then histories r ++ [(name, stage)] else histories r
  | .copy source target, r => if r = target then histories source else histories r
  | .lookup _ _, r => histories r

/-- The history of each registry. -/
def history (acts : List (Act σ)) : String → History σ := acts.foldl noted fun _ => []

theorem putRegistry_eq (name : String) (r : Registry σ) (registries : List (String × Registry σ)) :
    putRegistry name r registries = Table.put name r registries := by
  induction registries with
  | nil => rfl
  | cons entry rest ih => rw [putRegistry, Table.put, ih]

theorem registry_register (c : Catalogue σ) (registry name : String) (stage : σ) (r : String) :
    (c.register registry name stage).registry r =
      if r = registry then (c.registry r).register name stage else c.registry r := by
  rw [register, Catalogue.registry, putRegistry_eq, lookup_put]
  by_cases here : r = registry
  · rw [if_pos here, if_pos here, here]
    rfl
  · rw [if_neg here, if_neg here, Catalogue.registry]

theorem registry_copy (c : Catalogue σ) (source target r : String) :
    (c.copy source target).registry r = if r = target then c.registry source else c.registry r := by
  rw [copy, Catalogue.registry, putRegistry_eq, lookup_put]
  by_cases here : r = target
  · rw [if_pos here, if_pos here, Option.getD_some]
  · rw [if_neg here, if_neg here, Catalogue.registry]

/-- Every registry holds what its history registers. -/
def Records (c : Catalogue σ) (histories : String → History σ) : Prop :=
  ∀ r, c.registry r = .ofList (histories r)

theorem Records.after {c : Catalogue σ} {histories : String → History σ}
    (records : c.Records histories) (act : Act σ) :
    (c.after act).Records (noted histories act) := by
  intro r
  cases act with
  | register registry name stage =>
    rw [Catalogue.after, registry_register, noted, records r]
    split
    · exact (History.ofList_concat _ _ _).symm
    · rfl
  | copy source target =>
    rw [Catalogue.after, registry_copy, noted, records source, records r]
    split <;> rfl
  | lookup registry name => exact records r

/-- After any acts a registry holds what its history registers. -/
theorem registry_run (acts : List (Act σ)) : (run acts).Records (history acts) := by
  induction acts using List.reverseRecOn with
  | nil => exact fun _ => rfl
  | append_singleton acts act ih =>
    rw [run, history, List.foldl_append, List.foldl_append]
    exact ih.after act

theorem registry_after {c : Catalogue σ} {act : Act σ} {r : String} (other : act.changed? ≠ some r) :
    (c.after act).registry r = c.registry r := by
  cases act with
  | register registry name stage =>
    rw [after, registry_register, if_neg]
    rintro rfl
    exact other rfl
  | copy source target =>
    rw [after, registry_copy, if_neg]
    rintro rfl
    exact other rfl
  | lookup registry name => rfl

/-- Whatever has been done with any registries, a registry gives for a name the stage of the latest
registration in its own history, and refuses exactly the names that are not in it. Its names are those
of the history, each once, in the order of their first registrations. A further act leaves every
registry as it is but the one that something is registered in or that is made as a copy. -/
theorem answers_of_history (acts : List (Act σ)) (r : String) :
    (∀ name stage, ((run acts).registry r).lookup name = .ok stage ↔
      (history acts r).Latest name stage) ∧
    (∀ name unknown, ((run acts).registry r).lookup name = .error unknown ↔
      name ∉ (history acts r).map (·.1) ∧ unknown = ⟨name, ((run acts).registry r).names⟩) ∧
    (∀ name, ((run acts).registry r).isRegistered name ↔ name ∈ (history acts r).map (·.1)) ∧
    ((run acts).registry r).names = ((history acts r).map (·.1)).eraseDups ∧
    ((run acts).registry r).names.Nodup ∧
    ∀ act : Act σ, act.changed? ≠ some r →
      (run (acts ++ [act])).registry r = (run acts).registry r := by
  rw [registry_run acts r]
  have found := History.lookup_eq_some (history acts r)
  have registered := History.isRegistered_iff (history acts r)
  refine ⟨fun name stage => ?_, fun name unknown => ?_, registered, History.names_eq _,
    History.nodup_names _, fun act other => ?_⟩
  · rw [← found, Registry.lookup]
    cases (Registry.ofList (history acts r)).entries.lookup name <;> simp
  · rw [← registered, Registry.isRegistered, Registry.lookup]
    cases (Registry.ofList (history acts r)).entries.lookup name <;> simp [eq_comm]
  · rw [run, List.foldl_append, ← registry_run acts r]
    exact registry_after other

/-- A copy forks: a name is registered anew in the source behind it, and another one in the copy. -/
def forked : List (Act Nat) :=
  [.register "a" "x" 1, .register "a" "y" 2, .copy "a" "b", .register "a" "x" 3,
    .lookup "b" "x", .register "b" "z" 4]

theorem forked_answers :
    ((run forked).registry "b").names = ["x", "y", "z"] ∧
      ((run forked).registry "b").lookup "x" = .ok 1 ∧
      ((run forked).registry "a").lookup "x" = .ok 3 ∧
      (run (forked ++ [.register "a" "z" 5])).registry "b" = (run forked).registry "b" := by
  obtain ⟨found, -, -, names, -, others⟩ := answers_of_history forked "b"
  refine ⟨names.trans (by decide), (found "x" 1).mpr ⟨[], [("y", 2), ("z", 4)], rfl, by decide⟩,
    ((answers_of_history forked "a").1 "x" 3).mpr ⟨[("x", 1), ("y", 2)], [], rfl, by decide⟩,
    others _ (by decide)⟩

end Catalogue

end Branchwork
