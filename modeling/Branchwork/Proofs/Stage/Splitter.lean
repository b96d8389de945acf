import Branchwork.Proofs.Action
import Branchwork.Proofs.Step.Texts
import Mathlib.Data.List.Dedup
import Mathlib.Data.List.Induction

/-!
# A trace by its processes

The events of a trace are put into groups one after the other, each into the group of its process.
`Grouped` is what holds of the groups after any number of events; from it follows that splitting a
trace loses none of them.

Main results:

* `grouped_groupEvents` — every event is in the group of its process, with multiplicity.
* `runSplitter_eq` — a trace becomes the mapping of its processes to their events.
* `groupEvents_eq` — which events are in a group, and in which order.
* `splitter_partitions` — the parts of a trace, and what becomes of a part that is split again.
-/

namespace Branchwork.Stage

/-- The events in a trace; none in what is no trace. -/
def eventsOf (v : Value) : List Value := (events? v).getD []

/-- The processes that the events of a trace belong to, each once. -/
def processes (v : Value) : List String := ((eventsOf v).map processOf).dedup

/-- The trace with the given events. -/
def traceOf (events : List Value) : Value := .map (Mapping.ofTexts [(eventsKey, .list events)])

@[simp] theorem eventsOf_traceOf (events : List Value) : eventsOf (traceOf events) = events := by
  have found : Mapping.find? (Mapping.ofTexts [(eventsKey, .list events)]) eventsKey =
      some (.list events) := by
    rw [Mapping.find?, Mapping.ofTexts_cons, Mapping.get?, Mapping.equals_text]
    simp
  rw [eventsOf, traceOf, events?, found]
  rfl

/-! ## One more event -/

theorem keys_addEvent (process : String) (event : Value) (groups : List (String × List Value)) :
    (addEvent process event groups).map (·.1) =
      if process ∈ groups.map (·.1) then groups.map (·.1) else groups.map (·.1) ++ [process] := by
  induction groups with
  | nil => rfl
  | cons group rest ih =>
    obtain ⟨p, events⟩ := group
    rw [addEvent]
    by_cases here : p = process
    · rw [if_pos here, here, if_pos (List.mem_map_of_mem List.mem_cons_self)]
      rfl
    · rw [if_neg here, List.map_cons, ih]
      simp only [List.map_cons, List.mem_cons, Ne.symm here, false_or]
      split <;> rfl

/-- Only the group of the process is another one, by the event at its end. -/
theorem mem_addEvent {process : String} {event : Value} {groups : List (String × List Value)}
    {group : String × List Value} (mem : group ∈ addEvent process event groups) :
    group ∈ groups ∨ group = (process, [event]) ∨
      ∃ events, (process, events) ∈ groups ∧ group = (process, events ++ [event]) := by
  induction groups with
  | nil => exact .inr (.inl (List.mem_singleton.mp mem))
  | cons first rest ih =>
    obtain ⟨p, events⟩ := first
    rw [addEvent] at mem
    by_cases here : p = process
    · rw [if_pos here, List.mem_cons] at mem
      subst here
      rcases mem with rfl | later
      · exact .inr (.inr ⟨events, List.mem_cons_self, rfl⟩)
      · exact .inl (List.mem_cons_of_mem _ later)
    · rw [if_neg here, List.mem_cons] at mem
      rcases mem with rfl | later
      · exact .inl List.mem_cons_self
      · rcases ih later with old | new | ⟨events', old, same⟩
        · exact .inl (List.mem_cons_of_mem _ old)
        · exact .inr (.inl new)
        · exact .inr (.inr ⟨events', List.mem_cons_of_mem _ old, same⟩)

/-- The event comes last in the group of its process, which is made if there is none yet. -/
theorem addEvent_eq {process : String} {event : Value} {groups : List (String × List Value)}
    (once : (groups.map (·.1)).Nodup) : addEvent process event groups =
      if process ∈ groups.map (·.1) then
        groups.map fun group => (group.1, group.2 ++ if group.1 = process then [event] else [])
      else groups ++ [(process, [event])] := by
  induction groups with
  | nil => rfl
  | cons group rest ih =>
    obtain ⟨p, events⟩ := group
    obtain ⟨fresh, once⟩ := List.nodup_cons.mp once
    rw [addEvent]
    by_cases here : p = process
    · subst here
      rw [if_pos rfl, if_pos (List.mem_map_of_mem List.mem_cons_self), List.map_cons, if_pos rfl]
      -- no later group is one of this process
      refine congrArg _ ((List.map_id' rest).symm.trans (List.map_congr_left fun group mem => ?_))
      rw [if_neg fun same => fresh (List.mem_map.mpr ⟨group, mem, same⟩), List.append_nil]
    · rw [if_neg here, ih once]
      simp only [List.map_cons, List.mem_cons, Ne.symm here, false_or]
      by_cases later : process ∈ rest.map (·.1)
      · rw [if_pos later, if_pos later, if_neg here, List.append_nil]
      · rw [if_neg later, if_neg later, List.cons_append]

theorem together_addEvent (process : String) (event : Value) (groups : List (String × List Value)) :
    ((addEvent process event groups).flatMap (·.2)).Perm (groups.flatMap (·.2) ++ [event]) := by
  induction groups with
  | nil => exact .refl _
  | cons group rest ih =>
    obtain ⟨p, events⟩ := group
    rw [addEvent]
    by_cases here : p = process
    · -- the event moves past those of the later groups
      rw [if_pos here, List.flatMap_cons, List.flatMap_cons, List.append_assoc, List.append_assoc]
      exact List.perm_append_comm.append_left events
    · rw [if_neg here, List.flatMap_cons, List.flatMap_cons, List.append_assoc]
      exact ih.append_left events

/-! ## All events -/

/-- Events are in groups by their processes: each process has one group, which is not empty, and the
groups together hold the events, each as often as it came. -/
structure Grouped (events : List Value) (groups : List (String × List Value)) : Prop where
  once : (groups.map (·.1)).Nodup
  filled : ∀ group ∈ groups, group.2 ≠ []
  belongs : ∀ group ∈ groups, ∀ event ∈ group.2, processOf event = group.1
  together : (groups.flatMap (·.2)).Perm events

theorem Grouped.add {events : List Value} {groups : List (String × List Value)}
    (grouped : Grouped events groups) (event : Value) :
    Grouped (events ++ [event]) (addEvent (processOf event) event groups) where
  once := keys_addEvent .. ▸ nodup_putLast grouped.once
  filled := fun group mem => by
    rcases mem_addEvent mem with old | rfl | ⟨events, -, rfl⟩
    · exact grouped.filled group old
    · exact List.cons_ne_nil _ _
    · exact List.append_ne_nil_of_right_ne_nil _ (List.cons_ne_nil _ _)
  belongs := fun group mem => by
    rcases mem_addEvent mem with old | rfl | ⟨events, old, rfl⟩
    · exact grouped.belongs group old
    · simp
    · intro other mem
      rcases List.mem_append.mp mem with before | last
      · exact grouped.belongs _ old other before
      · rw [List.mem_singleton.mp last]
  together := (together_addEvent ..).trans (grouped.together.append_right [event])

theorem grouped_groupEvents (events : List Value) : Grouped events (groupEvents events) := by
  -- the events came one after the other: by induction on the last one
  induction events using List.reverseRecOn with
  | nil => exact ⟨List.nodup_nil, by simp [groupEvents], by simp [groupEvents], .refl _⟩
  | append_singleton events event ih =>
    rw [groupEvents, List.foldl_append]
    exact ih.add event

theorem Grouped.mem {events : List Value} {groups : List (String × List Value)}
    (grouped : Grouped events groups) {group : String × List Value} (isGroup : group ∈ groups)
    {event : Value} (inside : event ∈ group.2) : event ∈ events :=
  grouped.together.mem_iff.mp (List.mem_flatMap.mpr ⟨group, isGroup, inside⟩)

/-- There is a group for every process, and for no other text. -/
theorem Grouped.mem_keys {events : List Value} {groups : List (String × List Value)}
    (grouped : Grouped events groups) {process : String} :
    process ∈ groups.map (·.1) ↔ process ∈ events.map processOf := by
  simp only [List.mem_map]
  constructor
  · rintro ⟨group, mem, rfl⟩
    obtain ⟨event, inside⟩ := List.exists_mem_of_ne_nil _ (grouped.filled group mem)
    exact ⟨event, grouped.mem mem inside, grouped.belongs group mem event inside⟩
  · rintro ⟨event, among, rfl⟩
    obtain ⟨group, mem, inside⟩ := List.mem_flatMap.mp (grouped.together.mem_iff.mpr among)
    exact ⟨group, mem, (grouped.belongs group mem event inside).symm⟩

theorem keys_groupEvents (v : Value) :
    ((groupEvents (eventsOf v)).map (·.1)).Perm (processes v) := by
  have grouped := grouped_groupEvents (eventsOf v)
  refine (List.perm_ext_iff_of_nodup grouped.once (List.nodup_dedup _)).mpr fun process => ?_
  rw [grouped.mem_keys, List.mem_dedup]

/-- The groups are those of the processes, in order of their first events; each holds the events of its
process in order. -/
theorem groupEvents_eq (events : List Value) :
    groupEvents events = (events.map processOf).eraseDups.map fun process =>
      (process, events.filter fun event => processOf event = process) := by
  -- the events came one after the other: by induction on the last one
  induction events using List.reverseRecOn with
  | nil => rfl
  | append_singleton events event ih =>
    have once := (grouped_groupEvents events).once
    have keys : (groupEvents events).map (·.1) = (events.map processOf).eraseDups := by
      rw [ih, List.map_map]
      exact List.map_id _
    rw [groupEvents, List.foldl_append, List.foldl_cons, List.foldl_nil]
    change addEvent (processOf event) event (groupEvents events) = _
    rw [addEvent_eq once, keys, List.map_append, List.map_singleton, eraseDups_putLast]
    -- either the process has its group already, or its group is a new one at the end
    split
    · rw [ih, List.map_map]
      refine List.map_congr_left fun process _ => ?_
      by_cases same : processOf event = process
      · simp [same]
      · simp [same, Ne.symm same]
    · rename_i new
      rw [ih, List.map_append, List.map_singleton]
      congr 1
      · refine List.map_congr_left fun process mem => ?_
        have other : processOf event ≠ process := fun same => new (same ▸ mem)
        simp [other]
      · have none : events.filter (fun other => processOf other = processOf event) = [] := by
          refine List.filter_eq_nil_iff.mpr fun other mem same => new ?_
          rw [← of_decide_eq_true same]
          exact List.mem_eraseDups.mpr (List.mem_map_of_mem mem)
        simp [none]

/-- Events of one process are one group. -/
theorem groupEvents_of_one {process : String} {events : List Value} (some : events ≠ [])
    (one : ∀ event ∈ events, processOf event = process) :
    groupEvents events = [(process, events)] := by
  obtain ⟨first, rest, rfl⟩ := List.exists_cons_of_ne_nil some
  have others : (rest.map processOf).filter (fun other => !other == processOf first) = [] := by
    refine List.filter_eq_nil_iff.mpr (List.forall_mem_map.mpr fun event mem => ?_)
    rw [one event (List.mem_cons_of_mem _ mem), one first List.mem_cons_self]
    simp
  rw [groupEvents_eq, List.map_cons, List.eraseDups_cons, others, List.eraseDups_nil,
    List.map_singleton, one first List.mem_cons_self]
  refine congrArg (fun events => [(process, events)]) (List.filter_eq_self.mpr fun event mem => ?_)
  exact decide_eq_true (one event mem)

/-! ## The stage -/

/-- A trace, split: the trace of each process under its process. -/
def split (v : Value) : List (String × Value) :=
  (groupEvents (eventsOf v)).map fun group => (group.1, traceOf group.2)

theorem runSplitter_eq (v : Value) :
    runSplitter v = if (events? v).isSome then pure (.map (Mapping.ofTexts (split v)))
      else throw .noEvents := by
  unfold runSplitter
  cases found : events? v with
  | none => rfl
  | some events =>
    rw [split, eventsOf, found, Mapping.ofTexts, List.map_map]
    rfl

/-! ## The partition -/

/-- A value is a trace with the given events: the list of them, or a mapping that holds it. -/
def IsTrace (v : Value) (events : List Value) : Prop :=
  v = .list events ∨
    ∃ entries, v = .map entries ∧ Mapping.find? entries "traceEvents" = some (.list events)

theorem isTrace_iff {v : Value} {events : List Value} :
    IsTrace v events ↔ events? v = some events := by
  unfold IsTrace events?
  constructor
  · rintro (rfl | ⟨entries, rfl, found⟩)
    · rfl
    · dsimp only [eventsKey]
      rw [found]
  · intro h
    split at h
    · cases h
      exact .inl rfl
    · rename_i entries
      split at h
      · rename_i found
        cases h
        exact .inr ⟨entries, rfl, found⟩
      · cases h
    · cases h

/-- The process of an event is the text of what stands under its key, unless that is null. Everything
else belongs to the unknown process. -/
inductive BelongsTo : Value → String → Prop
  | noMapping {event} : (∀ entries, event ≠ .map entries) → BelongsTo event "unknown"
  | missing {entries} : Mapping.find? entries "pid" = none → BelongsTo (.map entries) "unknown"
  | null {entries} : Mapping.find? entries "pid" = some .null → BelongsTo (.map entries) "unknown"
  | process {entries pid} : Mapping.find? entries "pid" = some pid → pid ≠ .null →
      BelongsTo (.map entries) pid.plain

theorem belongsTo_iff {event : Value} {process : String} :
    BelongsTo event process ↔ processOf event = process := by
  constructor
  -- each way to belong to a process is one branch of how the process is read
  · intro belongs
    cases belongs with
    | noMapping other =>
      unfold processOf
      split
      · rename_i entries
        exact absurd rfl (other entries)
      · rfl
    | missing absent => rw [processOf, absent]
    | null isNull => rw [processOf, isNull]
    | process found given =>
      rw [processOf, found]
      split
      · rename_i none
        cases none
      · rename_i null
        cases null
        exact absurd rfl given
      · rename_i same
        cases same
        rfl
  · rintro rfl
    unfold processOf
    split
    · rename_i entries
      rcases found : Mapping.find? entries "pid" with _ | pid
      · exact .missing found
      · cases pid with
        | null => exact .null found
        | _ => exact .process found nofun
    · rename_i other
      exact .noMapping other

instance (event : Value) (process : String) : Decidable (BelongsTo event process) :=
  decidable_of_iff _ belongsTo_iff.symm

theorem forall₂_belongsTo (events : List Value) :
    List.Forall₂ BelongsTo events (events.map processOf) := by
  induction events with
  | nil => exact .nil
  | cons event rest ih => exact .cons (belongsTo_iff.mpr rfl) ih

theorem runSplitter_of_isTrace {v : Value} {events : List Value} (trace : IsTrace v events) :
    runSplitter v = pure (.map (Mapping.ofTexts
      ((groupEvents events).map fun part => (part.1, traceOf part.2)))) := by
  have found := isTrace_iff.mp trace
  rw [runSplitter_eq, found, split, eventsOf, found]
  rfl

theorem isTrace_traceOf (events : List Value) : IsTrace (traceOf events) events := by
  refine .inr ⟨_, rfl, ?_⟩
  rw [Mapping.find?, Mapping.ofTexts_cons, Mapping.get?, Mapping.equals_text, eventsKey]
  simp

/-- A trace is split into one part for each process, in the order in which the processes come first.
The part of a process holds its events, in order and at least one, so every event is in exactly one
part, as often as it came. A part that is split again stays as it is. -/
theorem splitter_partitions {v : Value} {events : List Value} (trace : IsTrace v events) (w : World) :
    ∃ (names : List String) (parts : List (String × List Value)),
      List.Forall₂ BelongsTo events names ∧
      (runSplitter v).on w =
        (.ok (.map (Mapping.ofTexts (parts.map fun part => (part.1, traceOf part.2)))), w) ∧
      parts.map (·.1) = names.eraseDups ∧
      (∀ part ∈ parts, part.2 ≠ [] ∧
        part.2 = events.filter fun event => BelongsTo event part.1) ∧
      (parts.Pairwise fun part other => part.2.Disjoint other.2) ∧
      (parts.flatMap (·.2)).Perm events ∧
      ∀ part ∈ parts, (runSplitter (traceOf part.2)).on w =
        (.ok (.map (Mapping.ofTexts [(part.1, traceOf part.2)])), w) := by
  have grouped := grouped_groupEvents events
  have belongs : ∀ part ∈ groupEvents events, part.2 = events.filter fun event =>
      BelongsTo event part.1 := by
    intro part mem
    rw [groupEvents_eq] at mem
    obtain ⟨process, -, rfl⟩ := List.mem_map.mp mem
    simp only [belongsTo_iff]
  refine ⟨events.map processOf, groupEvents events, forall₂_belongsTo events, ?_, ?_, ?_, ?_,
    grouped.together, fun part mem => ?_⟩
  · rw [runSplitter_of_isTrace trace, Action.on_pure]
  · rw [groupEvents_eq, List.map_map]
    exact List.map_id _
  · exact fun part mem => ⟨grouped.filled part mem, belongs part mem⟩
  · -- an event in two parts would belong to the processes of both
    have once := List.pairwise_map.mp grouped.once
    refine once.imp_of_mem fun {part other} mem mem' differ event inside inside' => differ ?_
    rw [← grouped.belongs part mem event inside, grouped.belongs other mem' event inside']
  · rw [runSplitter_of_isTrace (isTrace_traceOf part.2),
      groupEvents_of_one (grouped.filled part mem) (grouped.belongs part mem)]
    rfl

/-- Events of one process whose number is given in two ways, and of the unknown process. -/
def mixedEvents : List Value :=
  [.map [(.text "pid", .int 1)], .int 7, .map [(.text "pid", .text "1")],
    .map [(.text "pid", .null)], .map [(.text "pid", .text "unknown")]]

theorem mixedEvents_partitioned : IsTrace (traceOf mixedEvents) mixedEvents ∧
    ∃ (names : List String) (parts : List (String × List Value)),
      List.Forall₂ BelongsTo mixedEvents names ∧
      (runSplitter (traceOf mixedEvents)).on (.start ⟨[]⟩) =
        (.ok (.map (Mapping.ofTexts (parts.map fun part => (part.1, traceOf part.2)))),
          .start ⟨[]⟩) ∧
      parts.map (·.1) = names.eraseDups ∧
      (∀ part ∈ parts, part.2 ≠ [] ∧
        part.2 = mixedEvents.filter fun event => BelongsTo event part.1) ∧
      (parts.Pairwise fun part other => part.2.Disjoint other.2) ∧
      (parts.flatMap (·.2)).Perm mixedEvents ∧
      ∀ part ∈ parts, (runSplitter (traceOf part.2)).on (.start ⟨[]⟩) =
        (.ok (.map (Mapping.ofTexts [(part.1, traceOf part.2)])), .start ⟨[]⟩) :=
  ⟨isTrace_traceOf mixedEvents, splitter_partitions (isTrace_traceOf mixedEvents) _⟩

example : (groupEvents mixedEvents).map (fun part => (part.1, part.2.length)) =
    [("1", 2), ("unknown", 3)] := by decide

end Branchwork.Stage
