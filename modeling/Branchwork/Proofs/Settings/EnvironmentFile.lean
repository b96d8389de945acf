import Branchwork.Proofs.Result
import Branchwork.Proofs.Table
import Branchwork.Settings.EnvironmentFile

/-!
# What an environment file adds

A file gives each of its names one value, and some of them none. The variables of a file are added to
an environment that they do not override: what is defined stays as it is.

Main result: `load_get?` — the value of a variable in the completed environment.
-/

namespace Branchwork

theorem Environment.put_eq (name value : String) (env : Environment) :
    env.put name value = Table.put name value env := by
  induction env with
  | nil => rfl
  | cons entry rest ih => rw [put, Table.put, ih]

namespace EnvironmentFile

/-- What the text of a file gives the names that it defines. -/
def valuesOf (env : Environment) (text : String) : List (String × Option String) :=
  resolve env [] (definitions text)

/-- A name that is defined again is not named twice. -/
theorem nodup_resolve {env : Environment} {found : List (String × Option String)}
    (once : (found.map (·.1)).Nodup) (definitions : List Definition) :
    ((resolve env found definitions).map (·.1)).Nodup := by
  induction definitions generalizing found with
  | nil => exact once
  | cons d rest ih =>
    rw [resolve]
    refine ih ?_
    split
    · -- the values change, not the names
      rw [List.map_map]
      exact once
    · rw [List.map_append]
      refine List.nodup_append.mpr ⟨?_, by simp, fun name mem last mem' same => ?_⟩
      · exact once.sublist (List.filter_sublist.map _)
      · rw [List.map_singleton, List.mem_singleton] at mem'
        obtain ⟨entry, kept, rfl⟩ := List.mem_map.mp mem
        have other : entry.1 ≠ d.name := by simpa using (List.mem_filter.mp kept).2
        exact other (same.trans mem')

theorem define_get? {env env' : Environment} {name value : String}
    (h : define env name value = .ok env') (other : String) :
    env'.get? other = (env.get? other).or (if other = name then some value else none) := by
  unfold define at h
  split at h
  · rename_i defined
    cases h
    by_cases same : other = name
    · obtain ⟨old, isOld⟩ := Option.isSome_iff_exists.mp defined
      rw [same, isOld, Option.some_or]
    · rw [if_neg same, Option.or_none]
  · rename_i fresh
    split at h
    · cases h
    · split at h
      · cases h
      · cases h
        rw [Environment.put_eq, Environment.get?, lookup_put]
        by_cases same : other = name
        · rw [if_pos same, if_pos same, same, Option.not_isSome_iff_eq_none.mp fresh, Option.none_or]
        · rw [if_neg same, if_neg same, Option.or_none]
          rfl

/-- Values are added to an environment one by one. -/
theorem foldlM_define_get? {values : List (String × Option String)} {env env' : Environment}
    (once : (values.map (·.1)).Nodup)
    (h : values.foldlM (fun env (name, value) => value.elim (.ok env) (define env name)) env =
      (.ok env' : Except Problem Environment)) (name : String) :
    env'.get? name = (env.get? name).or (values.lookup name).join := by
  induction values generalizing env with
  | nil =>
    cases h
    rw [List.lookup_nil]
    simp
  | cons entry rest ih =>
    obtain ⟨n, value⟩ := entry
    rw [List.foldlM_cons] at h
    obtain ⟨mid, first, ended⟩ := bind_eq_ok.mp h
    obtain ⟨fresh, once⟩ := List.nodup_cons.mp once
    have here : mid.get? name = (env.get? name).or (if name = n then value else none) := by
      cases value with
      | none =>
        cases first
        simp
      | some value => exact define_get? first name
    rw [ih once ended, here, lookup_cons_if, Option.or_assoc]
    by_cases same : name = n
    · -- the name does not come again
      have last : rest.lookup name = none := lookup_eq_none_iff_fresh.mpr (same ▸ fresh)
      rw [if_pos same, if_pos same, last]
      simp
    · rw [if_neg same, if_neg same, Option.none_or]

/-- A variable has the value that it had, or else the one that the file gives it. -/
theorem load_get? {env env' : Environment} {text : String} (h : load env text = .ok env')
    (name : String) :
    env'.get? name = (env.get? name).or ((valuesOf env text).lookup name).join := by
  have once : (([] : List (String × Option String)).map (·.1)).Nodup := List.nodup_nil
  exact foldlM_define_get? (nodup_resolve once _) h name

end EnvironmentFile

end Branchwork
