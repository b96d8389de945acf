import Branchwork.Pipeline.Build
import Branchwork.Proofs.Stage.Splitter
import Branchwork.Proofs.Step.Hands
import Mathlib.Data.List.Perm.Basic

/-!
# What is left of a mapping that is flattened

A mapping stands for its parts: the entries of the mappings in it, each behind its key, and its other
entries. Flattening puts the parts under their joined keys one after the other, and of parts with one
key the last one is left. So nothing is lost exactly if the keys of the parts differ, whatever is
counted: the parts themselves, or the events in them.

Main results:

* `weigh_ofPairs_eq_iff` — putting entries loses weight exactly if two of them have one key.
* `split_loses_nothing_iff` — when flattening keeps every part, and when a split trace keeps its events.
-/

namespace Branchwork

namespace Mapping

/-- No entry has a key that is equal to that of an earlier one. -/
def Apart (entries : Mapping) : Prop := entries.Pairwise fun a b => a.1.equals b.1 = false

/-- The weights of all values together. -/
def weigh (weight : Value → Nat) : Mapping → Nat
  | [] => 0
  | (_, v) :: rest => weight v + weigh weight rest

/-! ## Putting one entry -/

theorem put_fresh {key v : Value} {entries : Mapping}
    (fresh : ∀ entry ∈ entries, entry.1.equals key = false) :
    put key v entries = entries ++ [(key, v)] := by
  induction entries with
  | nil => rfl
  | cons entry rest ih =>
    obtain ⟨here, later⟩ := List.forall_mem_cons.mp fresh
    rw [put, here, if_neg Bool.false_ne_true, ih later]
    rfl

/-- An entry with an equal key gives way to the one that is put. -/
theorem exists_put_equal {key : Value} (v : Value) {entries : Mapping}
    (there : ∃ entry ∈ entries, entry.1.equals key = true) :
    ∃ before k old after, entries = before ++ (k, old) :: after ∧
      put key v entries = before ++ (k, v) :: after := by
  induction entries with
  | nil => simp at there
  | cons entry rest ih =>
    obtain ⟨k, old⟩ := entry
    rw [put]
    by_cases here : k.equals key = true
    · rw [if_pos here]
      exact ⟨[], k, old, rest, rfl, rfl⟩
    · obtain ⟨other, mem, same⟩ := there
      have later : other ∈ rest := by
        rcases List.mem_cons.mp mem with rfl | later
        · exact absurd same here
        · exact later
      obtain ⟨before, k', old', after, rfl, put'⟩ := ih ⟨other, later, same⟩
      rw [if_neg here, put']
      exact ⟨(k, old) :: before, k', old', after, rfl, rfl⟩

theorem find?_put (key v : Value) (entries : Mapping) (name : String) :
    find? (put key v entries) name =
      if key.equals (.text name) then some v else find? entries name := by
  induction entries with
  | nil => rfl
  | cons entry rest ih =>
    obtain ⟨k, old⟩ := entry
    rw [find?] at ih
    rw [put, find?, find?, get?]
    by_cases wanted : key = .text name
    · subst wanted
      rw [if_pos (Value.equals_text_iff.mpr rfl)] at ih ⊢
      by_cases here : k.equals (.text name) = true
      · rw [if_pos here, get?, if_pos here]
      · rw [if_neg here, get?, if_neg here, ih]
    · rw [if_neg (mt Value.equals_text_iff.mp wanted)] at ih ⊢
      by_cases here : k.equals key = true
      · -- the key keeps its place, and neither it nor the one that is put is the name
        have other : ¬k.equals (.text name) = true := fun same =>
          wanted (Value.equals_of_text (Value.equals_text_iff.mp same ▸ here))
        rw [if_pos here, get?, if_neg other, if_neg other]
      · rw [if_neg here, get?, ih]
        rfl

/-! ## Putting entries in order -/

theorem ofPairs_concat (pairs : Mapping) (last : Value × Value) :
    ofPairs (pairs ++ [last]) = put last.1 last.2 (ofPairs pairs) := by
  rw [ofPairs, List.foldl_append]
  rfl

theorem apart_concat {pairs : Mapping} {last : Value × Value} :
    Apart (pairs ++ [last]) ↔ Apart pairs ∧ ∀ entry ∈ pairs, entry.1.equals last.1 = false := by
  simp [Apart, List.pairwise_append]

/-- Under each name the entry counts that was put last. -/
theorem find?_ofPairs (pairs : Mapping) (name : String) :
    find? (ofPairs pairs) name =
      (pairs.reverse.find? fun entry => entry.1.equals (.text name)).map (·.2) := by
  induction pairs using List.reverseRecOn with
  | nil => rfl
  | append_singleton pairs last ih =>
    rw [ofPairs_concat, find?_put, ih, List.reverse_concat, List.find?_cons]
    cases last.1.equals (.text name) <;> rfl

theorem ofPairs_of_apart {pairs : Mapping} (apart : Apart pairs) : ofPairs pairs = pairs := by
  induction pairs using List.reverseRecOn with
  | nil => rfl
  | append_singleton pairs last ih =>
    obtain ⟨apart, fresh⟩ := apart_concat.mp apart
    rw [ofPairs_concat, ih apart, put_fresh fresh]

/-! ## Weights -/

section Weight

variable (weight : Value → Nat)

theorem weigh_append (entries more : Mapping) :
    weigh weight (entries ++ more) = weigh weight entries + weigh weight more := by
  induction entries with
  | nil => simp [weigh]
  | cons entry rest ih =>
    rw [List.cons_append, weigh, weigh, ih]
    omega

/-- The entry that gives way takes its weight with it. -/
theorem weigh_put_lt {key v : Value} {entries : Mapping}
    (heavy : ∀ entry ∈ entries, 0 < weight entry.2)
    (there : ∃ entry ∈ entries, entry.1.equals key = true) :
    weigh weight (put key v entries) < weigh weight entries + weight v := by
  obtain ⟨before, k, old, after, rfl, same⟩ := exists_put_equal v there
  have lost : 0 < weight old := heavy (k, old) (List.mem_append_right _ List.mem_cons_self)
  rw [same, weigh_append, weigh_append]
  simp only [weigh]
  omega

theorem weigh_put_le (key v : Value) (entries : Mapping) :
    weigh weight (put key v entries) ≤ weigh weight entries + weight v := by
  by_cases there : ∃ entry ∈ entries, entry.1.equals key = true
  · obtain ⟨before, k, old, after, rfl, same⟩ := exists_put_equal v there
    rw [same, weigh_append, weigh_append]
    simp only [weigh]
    omega
  · have fresh : ∀ entry ∈ entries, entry.1.equals key = false := fun entry mem =>
      Bool.eq_false_iff.mpr fun same => there ⟨entry, mem, same⟩
    rw [put_fresh fresh, weigh_append]
    simp [weigh]

theorem weigh_ofPairs_lt {pairs : Mapping} (heavy : ∀ entry ∈ pairs, 0 < weight entry.2)
    (together : ¬Apart pairs) : weigh weight (ofPairs pairs) < weigh weight pairs := by
  -- weight that is lost does not come back: by induction on the last entry
  induction pairs using List.reverseRecOn with
  | nil => exact absurd List.Pairwise.nil together
  | append_singleton pairs last ih =>
    obtain ⟨heavy, -⟩ := List.forall_mem_append.mp heavy
    have whole : weigh weight (pairs ++ [last]) = weigh weight pairs + weight last.2 :=
      weigh_append weight pairs [last]
    rw [ofPairs_concat, whole]
    by_cases apart : Apart pairs
    · -- all others are still there, and the last one is the first that meets an equal key
      have there : ∃ entry ∈ pairs, entry.1.equals last.1 = true := by
        by_contra none
        refine together (apart_concat.mpr ⟨apart, fun entry mem => ?_⟩)
        exact Bool.eq_false_iff.mpr fun same => none ⟨entry, mem, same⟩
      rw [ofPairs_of_apart apart]
      exact weigh_put_lt weight heavy there
    · have before := ih heavy apart
      have after := weigh_put_le weight last.1 last.2 (ofPairs pairs)
      omega

/-- Entries that all weigh something keep their weight exactly if each has a key of its own. -/
theorem weigh_ofPairs_eq_iff {pairs : Mapping} (heavy : ∀ entry ∈ pairs, 0 < weight entry.2) :
    weigh weight (ofPairs pairs) = weigh weight pairs ↔ Apart pairs := by
  constructor
  · intro same
    by_contra together
    exact Nat.ne_of_lt (weigh_ofPairs_lt weight heavy together) same
  · intro apart
    rw [ofPairs_of_apart apart]

end Weight

theorem length_joinKeys_iff (entries : Mapping) :
    entries.joinKeys.length = entries.parts.length ↔ Apart entries.parts := by
  have count (entries : Mapping) : weigh (fun _ => 1) entries = entries.length := by
    induction entries with
    | nil => rfl
    | cons entry rest ih =>
      rw [weigh, ih, List.length_cons]
      omega
  rw [← count, ← count]
  exact weigh_ofPairs_eq_iff (fun _ => 1) fun _ _ => Nat.one_pos

/-! ## Traces -/

/-- The events of all traces in a mapping. -/
def events (traces : Mapping) : List Value := traces.flatMap fun trace => Stage.eventsOf trace.2

/-- The names that the parts of traces get: that of the trace, and behind it the process. -/
def splitNames (traces : Mapping) : List String :=
  traces.flatMap fun trace => (Stage.processes trace.2).map (trace.1.plain ++ "." ++ ·)

/-- The parts of traces, with their names. -/
def splitRows (traces : Mapping) : List (String × Value) :=
  traces.flatMap fun trace =>
    (Stage.split trace.2).map fun row => (trace.1.plain ++ "." ++ row.1, row.2)

theorem length_events (traces : Mapping) :
    traces.events.length = weigh (fun v => (Stage.eventsOf v).length) traces := by
  induction traces with
  | nil => rfl
  | cons trace rest ih =>
    rw [events] at ih
    rw [events, List.flatMap_cons, List.length_append, ih, weigh]

theorem apart_ofTexts (rows : List (String × Value)) :
    Apart (ofTexts rows) ↔ (rows.map (·.1)).Nodup := by
  rw [Apart, ofTexts, List.pairwise_map, List.Nodup, List.pairwise_map]
  simp [equals_text]

/-- The mappings that traces are split into have these parts, which are put in order. -/
theorem joinKeys_split (traces : Mapping) :
    joinKeys (traces.map fun trace => (trace.1, .map (ofTexts (Stage.split trace.2)))) =
      ofPairs (ofTexts (splitRows traces)) :=
  congrArg ofPairs (parts_nested traces (·.1) fun trace => Stage.split trace.2)

theorem splitRows_names (traces : Mapping) :
    ((splitRows traces).map (·.1)).Perm (splitNames traces) := by
  rw [splitRows, List.map_flatMap, splitNames]
  refine List.Perm.flatMap_left traces fun trace _ => ?_
  have keys := (Stage.keys_groupEvents trace.2).map (trace.1.plain ++ "." ++ ·)
  simpa [Stage.split, Function.comp_def] using keys

theorem splitRows_events (traces : Mapping) :
    (events (ofTexts (splitRows traces))).Perm traces.events := by
  have each (trace : Value × Value) :
      ((Stage.split trace.2).flatMap fun row => Stage.eventsOf row.2).Perm
        (Stage.eventsOf trace.2) := by
    have together := (Stage.grouped_groupEvents (Stage.eventsOf trace.2)).together
    simpa [Stage.split, List.flatMap_map] using together
  have rows : events (ofTexts (splitRows traces)) =
      traces.flatMap fun trace => (Stage.split trace.2).flatMap fun row => Stage.eventsOf row.2 := by
    simp [events, ofTexts, splitRows, List.flatMap_map, List.flatMap_assoc]
  rw [rows]
  exact List.Perm.flatMap_left traces fun trace _ => each trace

/-- Every part of a trace holds an event. -/
theorem splitRows_filled {traces : Mapping} {entry : Value × Value}
    (mem : entry ∈ ofTexts (splitRows traces)) : 0 < (Stage.eventsOf entry.2).length := by
  obtain ⟨row, isRow, rfl⟩ := List.mem_map.mp mem
  obtain ⟨trace, -, among⟩ := List.mem_flatMap.mp isRow
  obtain ⟨part, isPart, rfl⟩ := List.mem_map.mp among
  obtain ⟨group, isGroup, rfl⟩ := List.mem_map.mp isPart
  have filled := (Stage.grouped_groupEvents _).filled group isGroup
  rw [Stage.eventsOf_traceOf]
  exact List.length_pos_of_ne_nil filled

/-- The parts that are left hold all events exactly if every part has a name of its own. -/
theorem events_split_iff (traces : Mapping) :
    (events (ofPairs (ofTexts (splitRows traces)))).Perm traces.events ↔
      (splitNames traces).Nodup := by
  have whole := splitRows_events traces
  have apart : Apart (ofTexts (splitRows traces)) ↔ (splitNames traces).Nodup :=
    (apart_ofTexts _).trans (splitRows_names traces).nodup_iff
  rw [← apart]
  constructor
  · intro kept
    -- every part holds an event, so a part that is lost makes the events fewer
    rw [← weigh_ofPairs_eq_iff (fun v => (Stage.eventsOf v).length) fun _ => splitRows_filled,
      ← length_events, ← length_events]
    exact (kept.trans whole.symm).length_eq
  · intro apart
    rw [ofPairs_of_apart apart]
    exact whole

end Mapping

namespace Pipeline

open Action Experiment

/-- Traces are split one after the other, up to the first value that is none. -/
theorem mapValues_split (scope : Stage.Scope) (traces : Mapping) (w : World) :
    (traces.mapValues fun v => Stage.tracePidSplitter.run scope v).on w =
      if traces.all fun trace => (Stage.events? trace.2).isSome then
        (.ok (traces.map fun trace => (trace.1, .map (Mapping.ofTexts (Stage.split trace.2)))), w)
      else (.error .noEvents, w) := by
  induction traces with
  | nil => rfl
  | cons trace rest ih =>
    obtain ⟨key, v⟩ := trace
    have ran : (Stage.tracePidSplitter.run scope v).on w =
        if (Stage.events? v).isSome then (.ok (.map (Mapping.ofTexts (Stage.split v))), w)
        else (.error .noEvents, w) := by
      rw [Stage.run, Stage.runSplitter_eq]
      split <;> rfl
    rw [Mapping.mapValues]
    by_cases first : (Stage.events? v).isSome = true
    · -- this value is a trace, so it is the others that decide
      rw [if_pos first] at ran
      rw [on_bind_ok ran]
      by_cases others : (rest.all fun trace => (Stage.events? trace.2).isSome) = true
      · rw [if_pos others] at ih
        rw [on_bind_ok ih]
        simp [first, others]
      · rw [if_neg others] at ih
        rw [on_bind_error ih]
        simp [others]
    · rw [if_neg first] at ran
      rw [on_bind_error ran]
      simp [first]

/-- Flattening loses no part of a mapping exactly if each has a key of its own; of parts under one
name the last one is left. So traces that are split by their processes keep their events, each as
often as it came, exactly if no two parts get one name. -/
theorem split_loses_nothing_iff (input : Input) :
    (∀ (scope : Stage.Scope) (entries : Mapping) (w : World),
      (Step.joinKeys.run scope (.map entries)).on w = (.ok (.map entries.joinKeys), w) ∧
      (∀ name, entries.joinKeys.find? name =
        (entries.parts.reverse.find? fun part => part.1.equals (.text name)).map (·.2)) ∧
      (entries.joinKeys.length = entries.parts.length ↔ entries.parts.Apart) ∧
      (entries.joinKeys = entries.parts ↔ entries.parts.Apart)) ∧
    ∃ step, resolve .builtIn input (.named "tracePIDSplitter") = .ok step ∧
      ∀ (scope : Stage.Scope) (traces : Mapping) (w : World),
        if traces.all fun trace => (Stage.events? trace.2).isSome then
          ∃ left : Mapping, (step.run scope (.map traces)).on w = (.ok (.map left), w) ∧
            (left.events.Perm traces.events ↔ traces.splitNames.Nodup)
        else (step.run scope (.map traces)).on w = (.error .noEvents, w) := by
  refine ⟨fun scope entries w => ⟨?_, ?_, Mapping.length_joinKeys_iff entries, ?_⟩, ?_⟩
  · rw [Step.run_joinKeys]
    rfl
  · exact Mapping.find?_ofPairs entries.parts
  · constructor
    · intro same
      exact (Mapping.length_joinKeys_iff entries).mp (congrArg List.length same)
    · exact Mapping.ofPairs_of_apart
  · -- the step splits every trace, and then joins the keys
    refine ⟨.chain "tracePIDSplitter" [.onValues (.stage .tracePidSplitter), .joinKeys], rfl, ?_⟩
    intro scope traces w
    have splits := mapValues_split scope traces w
    rw [Step.run, Step.runAll_cons_on, Step.run_onValues, Step.run_stage]
    split
    · rename_i all
      rw [if_pos all] at splits
      refine ⟨_, ?_, Mapping.events_split_iff traces⟩
      rw [on_bind_ok splits, on_pure]
      dsimp only
      rw [Step.runAll_cons_on, Step.run_joinKeys, on_pure]
      dsimp only
      rw [Step.runAll_nil_on, Mapping.joinKeys_split]
    · rename_i none
      rw [if_neg none] at splits
      rw [on_bind_error splits]

/-- The part of the first trace and that of the second one get one name. -/
example : Mapping.splitNames
    [(.text "t", .list [.map [(.text "pid", .text "1.2")]]),
      (.text "t.1", .list [.map [(.text "pid", .text "2")]])] = ["t.1.2", "t.1.2"] := by
  decide +kernel

end Pipeline

end Branchwork
