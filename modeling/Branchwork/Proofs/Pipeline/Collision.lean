import Branchwork.Pipeline.Build
import Branchwork.Proofs.Step.Hands

/-!
# Two keys with one output name

A mapping is renamed as a whole before its first entry is written. So whether two keys get one output
name is decided by the keys alone, and where they do nothing at all has happened to the files, at the
end of a pipeline as well as on the way. Where they do not, the entries are written one after the other
in the order of the mapping.

Main results:

* `collisions_stop_writing` — a mapping is written exactly if its keys get different output names.
-/

namespace Branchwork.Pipeline

open Action Experiment Mapping

variable {scope : Stage.Scope}

/-- The output name of a key. -/
def nameFor (input : Input) (target key : String) : String :=
  Pattern.outputName input.pattern key target

/-- The entries of a mapping under their output names. -/
def named (input : Input) (target : String) (entries : List (String × Value)) :
    List (String × Value) :=
  entries.map fun entry => (nameFor input target entry.1, entry.2)

theorem rename_named (input : Input) (target : String) (entries : List (String × Value)) :
    if (entries.map fun entry => nameFor input target entry.1).Nodup then
      Mapping.rename input.pattern target (ofTexts entries) =
        .ok (ofTexts (named input target entries))
    else ∃ source key, FirstClash (nameFor input target) (entries.map (·.1)) source key ∧
      Mapping.rename input.pattern target (ofTexts entries) =
        .error (.sameName source key (nameFor input target key)) :=
  rename_ofTexts input.pattern target entries

/-- Writes entries to the files that their names stand for, one after the other. -/
def writeEntries (scope : Stage.Scope) (entries : List (String × Value)) : Action (List Value) :=
  mapItems (fun v => Stage.toFile.run scope v)
    (entries.map fun entry => .tuple [.text entry.1, entry.2])

/-- The steps that write a mapping. -/
def writers (input : Input) (target : String) : List Step :=
  [.rename input.pattern target, .pairs, .onEach (.stage .toFile)]

/-- The step that writes a mapping and passes it on. -/
def materializer (input : Input) (target : String) : Step :=
  .chain (materializeStart ++ target)
    (.duplicate :: (writers input target).map .onRight ++ [.left])

theorem writeSteps_eq (input : Input) (target : String) :
    writeSteps .builtIn input target = .ok (writers input target) := rfl

theorem materializeStep_eq (input : Input) (target : String) :
    materializeStep .builtIn input target = .ok (materializer input target) := rfl

/-- To write a mapping is to rename it and to write its entries behind that. -/
theorem runAll_writers (input : Input) (target : String) (entries : Mapping) :
    Step.runAll scope (writers input target) (.map entries) = (do
      let renamed ← ofExcept id (entries.rename input.pattern target)
      let items ← mapItems (fun v => Stage.toFile.run scope v)
        (renamed.map fun (key, v) => .tuple [key, v])
      return .list items) := by
  rw [writers, Step.runAll, Step.run_rename, bind_assoc]
  refine bind_congr fun renamed => ?_
  rw [pure_bind, Step.runAll, Step.run_pairs, pure_bind, Step.runAll, Step.run_onEach, bind_assoc,
    Step.run_stage]
  refine bind_congr fun items => ?_
  rw [pure_bind, Step.runAll]

theorem writeEntries_eq (rows : List (String × Value)) :
    (do
      let items ← mapItems (fun v => Stage.toFile.run scope v)
        ((ofTexts rows).map fun (key, v) => .tuple [key, v])
      return .list items) = Value.list <$> writeEntries scope rows := by
  rw [map_eq_pure_bind, writeEntries, ofTexts, List.map_map]
  rfl

/-- Under output names that differ, the entries are written in their order. -/
theorem runAll_writers_named {input : Input} {target : String} {entries : List (String × Value)}
    (apart : (entries.map fun entry => nameFor input target entry.1).Nodup) :
    Step.runAll scope (writers input target) (.map (ofTexts entries)) =
      .list <$> writeEntries scope (named input target entries) := by
  have renamed := rename_named input target entries
  rw [if_pos apart] at renamed
  rw [runAll_writers, renamed, ← writeEntries_eq]
  rfl

/-- What is written on the way goes on as it came. -/
theorem run_materializer (input : Input) (target : String) (v : Value) :
    (materializer input target).run scope v =
      (fun _ => v) <$> Step.runAll scope (writers input target) v := by
  rw [materializer, Step.run, List.cons_append, Step.runAll, Step.run, pure_bind,
    Step.runAll_append, Step.runAll_onRight, bind_map_left, map_eq_pure_bind]
  refine bind_congr fun items => ?_
  rw [Step.runAll, Step.run]
  rfl

/-- Two keys with one output name are found before anything is written. Where the output names of the
keys differ, the mapping is renamed in place and its entries are written in their order. Otherwise the
first key whose name is taken is reported, together with the key that has taken it, and the world is as
it was. -/
theorem collisions_stop_writing (input : Input) (target : String)
    (entries : List (String × Value)) :
    ∃ sink step, writeSteps .builtIn input target = .ok sink ∧
      materializeStep .builtIn input target = .ok step ∧
      if (entries.map fun entry => nameFor input target entry.1).Nodup then
        Mapping.rename input.pattern target (ofTexts entries) =
          .ok (ofTexts (named input target entries)) ∧
        ∀ scope : Stage.Scope,
          Step.runAll scope sink (.map (ofTexts entries)) =
            .list <$> writeEntries scope (named input target entries) ∧
          step.run scope (.map (ofTexts entries)) =
            (fun _ => .map (ofTexts entries)) <$> writeEntries scope (named input target entries)
      else
        ∃ source key name fault,
          FirstClash (nameFor input target) (entries.map (·.1)) source key ∧
          name = nameFor input target key ∧ fault.kind = "ValueError" ∧
          fault.message = s!"Keys '{source}' and '{key}' both map to '{name}'" ∧
          Mapping.rename input.pattern target (ofTexts entries) = .error fault ∧
          ∀ (scope : Stage.Scope) (w : World),
            (Step.runAll scope sink (.map (ofTexts entries))).on w = (.error fault, w) ∧
            (step.run scope (.map (ofTexts entries))).on w = (.error fault, w) := by
  refine ⟨_, _, writeSteps_eq input target, materializeStep_eq input target, ?_⟩
  have renamed := rename_named input target entries
  by_cases apart : (entries.map fun entry => nameFor input target entry.1).Nodup
  · rw [if_pos apart] at renamed ⊢
    refine ⟨renamed, fun scope => ⟨runAll_writers_named apart, ?_⟩⟩
    rw [run_materializer, runAll_writers_named apart, Functor.map_map]
  · rw [if_neg apart] at renamed ⊢
    obtain ⟨source, key, clash, refused⟩ := renamed
    refine ⟨source, key, _, .sameName source key _, clash, rfl, rfl, rfl, refused, fun scope w => ?_⟩
    -- the steps end with the renaming, which asks nothing of the world
    have stops : (Step.runAll scope (writers input target) (.map (ofTexts entries))).on w =
        (.error (.sameName source key (nameFor input target key)), w) := by
      rw [runAll_writers, refused]
      rfl
    refine ⟨stops, ?_⟩
    rw [run_materializer, on_map, stops]
    rfl

end Branchwork.Pipeline
