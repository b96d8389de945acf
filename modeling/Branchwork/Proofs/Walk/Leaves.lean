import Branchwork.Proofs.Walk.Steps

/-!
# Leaves instead of a walk

A leaf is run by its own list of steps, so that what several leaves have in common is done again for
each of them. The first leaf below an edge does what the walk does there; for every later one the
steps on the way come to the mapping that they came to before, and change nothing.

What is carried through the tree is `Stand`: the steps that lead to some edges come to one mapping over
all files between those that the walk has reached and those that it will leave.

Main result: `runs_leaves` — leaves one behind the other end as those of the walk and leave its files.
-/

namespace Branchwork.Walk

open Experiment Action Pipeline Stage FileSystem

variable {scope : Stage.Scope} {input : Input}

/-! ## Lists of steps -/

/-- What becomes of lists of steps one behind the other: how each of them ends, and the files behind
all. -/
def runs (scope : Stage.Scope) : List (List Step) → FileSystem → List (Option Fault) × FileSystem
  | [], fs => ([], fs)
  | steps :: rest, fs =>
    let ran := (Step.runAll scope steps .null).over fs
    let others := runs scope rest ran.2
    (faultOf ran.1 :: others.1, others.2)

theorem runs_cons {steps : List Step} {rest : List (List Step)} {fs behind : FileSystem}
    {result : Except Fault Value} (ran : (Step.runAll scope steps .null).over fs = (result, behind)) :
    runs scope (steps :: rest) fs =
      (faultOf result :: (runs scope rest behind).1, (runs scope rest behind).2) := by
  rw [runs, ran]

theorem runs_append (first second : List (List Step)) (fs : FileSystem) :
    runs scope (first ++ second) fs =
      ((runs scope first fs).1 ++ (runs scope second (runs scope first fs).2).1,
        (runs scope second (runs scope first fs).2).2) := by
  induction first generalizing fs with
  | nil => rfl
  | cons steps rest ih => rw [List.cons_append, runs, ih, runs, List.cons_append]

/-- Lists that all fail alike and change nothing. -/
theorem runs_refused {lists : List (List Step)} {fs : FileSystem} {cause : Fault}
    (each : ∀ steps ∈ lists, (Step.runAll scope steps .null).over fs = (.error cause, fs)) :
    runs scope lists fs = (List.replicate lists.length (some cause), fs) := by
  induction lists with
  | nil => rfl
  | cons steps rest ih =>
    rw [runs_cons (each steps List.mem_cons_self),
      ih fun steps mem => each steps (List.mem_cons_of_mem _ mem)]
    rfl

/-- Where only the first list matters: it does the same from two starts. -/
theorem runs_congr {steps : List Step} {rest : List (List Step)} {fs g : FileSystem}
    (same : (Step.runAll scope steps .null).over fs = (Step.runAll scope steps .null).over g) :
    runs scope (steps :: rest) fs = runs scope (steps :: rest) g := by
  rw [runs, runs, same]

/-- A pipeline consists of the steps that acquire its input, those of its stages and those that deliver
what has become of it. -/
theorem build_eq_ok {registry : Registry Stage} {leaf : Leaf} {p : Pipeline} :
    build registry input leaf = .ok p ↔ ∃ source stages sink,
      inputSteps registry input = .ok source ∧
      leaf.stages.mapM (resolve registry input) = .ok stages ∧
      sinkSteps registry input leaf.output = .ok sink ∧
      p = ⟨input, leaf, source ++ stages ++ sink⟩ := by
  constructor
  · intro built
    obtain ⟨source, okSource, built⟩ := bind_eq_ok.mp built
    obtain ⟨stages, okStages, built⟩ := bind_eq_ok.mp built
    obtain ⟨sink, okSink, last⟩ := bind_eq_ok.mp built
    exact ⟨source, stages, sink, okSource, okStages, okSink, (Except.ok.inj last).symm⟩
  · rintro ⟨source, stages, sink, okSource, okStages, okSink, rfl⟩
    exact bind_eq_ok.mpr ⟨source, okSource, bind_eq_ok.mpr ⟨stages, okStages,
      bind_eq_ok.mpr ⟨sink, okSink, rfl⟩⟩⟩

/-- Steps acquire an input and apply the stages on the way to some edges. -/
def LeadsTo (input : Input) (before : List StageRef) (steps : List Step) : Prop :=
  ∃ source stages, inputSteps .builtIn input = .ok source ∧
    before.mapM (resolve .builtIn input) = .ok stages ∧ steps = source ++ stages

theorem LeadsTo.append {before more : List StageRef} {steps further : List Step}
    (leads : LeadsTo input before steps)
    (resolved : more.mapM (resolve .builtIn input) = .ok further) :
    LeadsTo input (before ++ more) (steps ++ further) := by
  obtain ⟨source, stages, acquired, applied, rfl⟩ := leads
  refine ⟨source, stages ++ further, acquired, ?_, List.append_assoc _ _ _⟩
  rw [List.mapM_append, applied, resolved]
  rfl

theorem LeadsTo.build {before : List StageRef} {steps sinks : List Step} {output : String}
    (leads : LeadsTo input before steps) (delivered : sinkSteps .builtIn input output = .ok sinks) :
    build .builtIn input ⟨before, output⟩ = .ok ⟨input, ⟨before, output⟩, steps ++ sinks⟩ := by
  obtain ⟨source, stages, acquired, applied, rfl⟩ := leads
  exact build_eq_ok.mpr ⟨source, stages, sinks, acquired, applied, delivered, rfl⟩

/-- The leaves of an unfolding can be built, and each of their pipelines begins with the steps that
lead to the unfolding. -/
theorem exists_pipelines (onFiles : scope.OnFiles) {u : Unfolding} (walkable : Walkable u)
    {before : List StageRef} {steps : List Step} (leads : LeadsTo input before steps) :
    ∃ pipelines, (u.leaves before).mapM (build .builtIn input) = .ok pipelines ∧
      ∀ p ∈ pipelines, steps <+: p.steps := by
  induction u generalizing before steps with
  | done => exact ⟨[], rfl, fun p mem => by cases mem⟩
  -- a leaf of its own, and then the leaves of the other edges
  | sink edge rest ih =>
    obtain ⟨passing, walkable⟩ := walkable
    obtain ⟨more, sinks, resolved, delivered, -⟩ :=
      sinkSteps_over onFiles input passing
    obtain ⟨others, built, begin_with⟩ := ih walkable leads
    have first := (leads.append resolved).build delivered
    refine ⟨⟨input, ⟨before ++ edge.steps false, edge.output⟩, steps ++ more ++ sinks⟩ :: others,
      ?_, fun p mem => ?_⟩
    · rw [Unfolding.leaves, List.mapM_cons, first, built]
      rfl
    · rcases List.mem_cons.mp mem with rfl | mem
      · exact ⟨more ++ sinks, (List.append_assoc _ _ _).symm⟩
      · exact begin_with p mem
  -- the leaves below go on from the steps for the edge
  | node edge below rest ihBelow ihRest =>
    obtain ⟨passing, inner, -, walkableBelow, walkableRest⟩ := walkable
    obtain ⟨more, resolved, -⟩ := edgeSteps_over onFiles input passing inner
    obtain ⟨first, builtBelow, below_with⟩ := ihBelow walkableBelow (leads.append resolved)
    obtain ⟨others, builtRest, rest_with⟩ := ihRest walkableRest leads
    refine ⟨first ++ others, ?_, fun p mem => ?_⟩
    · rw [Unfolding.leaves, List.mapM_append, builtBelow, builtRest]
      rfl
    · rcases List.mem_append.mp mem with mem | mem
      · exact (List.prefix_append steps more).trans (below_with p mem)
      · exact rest_with p mem

/-! ## Where a walk stands -/

section

variable {written : List Location} {final : FileSystem}

/-- A walk has reached some files, and steps lead there: over these files, and over all files between
them and the final ones in which the kept places are as they are now, the steps come to one mapping and
change nothing. -/
structure Stand (scope : Stage.Scope) (written : List Location) (final : FileSystem)
    (kept : List Location) (fs : FileSystem) (steps : List Step) (entries : Mapping) : Prop where
  ready : Ready scope fs
  file : ∀ place ∈ kept, ∃ bytes, fs.get? place = some (.file bytes)
  again : ∀ g, Ready scope g → Grown written fs g → Grown written g final →
    (∀ place ∈ kept, g.get? place = fs.get? place) →
    (Step.runAll scope steps .null).over g = (.ok (.map entries), g)

variable {kept : List Location} {fs : FileSystem} {steps : List Step} {entries : Mapping}

theorem Stand.ran (stand : Stand scope written final kept fs steps entries)
    (last : Grown written fs final) :
    (Step.runAll scope steps .null).over fs = (.ok (.map entries), fs) :=
  stand.again fs stand.ready (.refl _ _) last fun _ _ => rfl

/-- Writing elsewhere does not matter. -/
theorem Stand.later {g : FileSystem} {places : List Location}
    (stand : Stand scope written final kept fs steps entries) (left : Left scope fs g places)
    (wrote : places ⊆ written) (apart : kept.Disjoint places) :
    Stand scope written final kept g steps entries := by
  have unchanged : ∀ place ∈ kept, g.get? place = fs.get? place := fun place mem =>
    left.get?_eq (fun new => apart mem new) (stand.file place mem)
  refine ⟨left.ready, fun place mem => ?_, fun h ready grown last same => ?_⟩
  · rw [unchanged place mem]
    exact stand.file place mem
  · refine stand.again h ready ((left.grown.mono wrote).trans grown) last fun place mem => ?_
    rw [same place mem, unchanged place mem]

theorem templatesApart_of_final {g : FileSystem} (templates : scope.TemplatesApart written final)
    (last : Grown written g final) : scope.TemplatesApart written g := by
  intro place look
  obtain ⟨entry, look', same⟩ := last.look look
  rw [same.mpr rfl] at look'
  exact templates place look'

section

variable (onFiles : scope.OnFiles) (templates : scope.TemplatesApart written final) {edge : Edge}
  (passing : Passing edge.stages) {more : List Step}
  (does : ∀ (entries : Mapping) fs, (Step.runAll scope more (.map entries)).over fs =
    asValue ((pass scope edge.stages (keep scope input edge) entries fs).result,
      (pass scope edge.stages (keep scope input edge) entries fs).files))
  (stand : Stand scope written final kept fs steps entries)
  (wrote : (pass scope edge.stages (keep scope input edge) entries fs).places ⊆ written)
  (apart : kept.Disjoint (pass scope edge.stages (keep scope input edge) entries fs).places)
  (last : Grown written (pass scope edge.stages (keep scope input edge) entries fs).files final)
include onFiles templates passing does stand wrote apart

/-- A walk goes through an edge, and the steps for the edge follow. -/
theorem Stand.through {behind : Mapping}
    (ok : (pass scope edge.stages (keep scope input edge) entries fs).result = .ok behind) :
    Stand scope written final
      (kept ++ (pass scope edge.stages (keep scope input edge) entries fs).places)
      (pass scope edge.stages (keep scope input edge) entries fs).files (steps ++ more) behind := by
  have left := pass_keep_left passing input entries stand.ready
  have stood := stand.later left wrote apart
  refine ⟨left.ready, fun place mem => ?_, fun g ready grown last same => ?_⟩
  · rcases List.mem_append.mp mem with old | new
    · exact stood.file place old
    · exact left.file place new
  · have before := stood.again g ready grown last fun place mem =>
      same place (List.mem_append_left _ mem)
    have again := pass_again passing stand.ready wrote ok ready.sound grown
      (templatesApart_of_final templates last) fun place mem =>
        same place (List.mem_append_right _ mem)
    rw [runAll_append_over onFiles, before]
    dsimp only
    rw [does, again]
    rfl

include last

/-- Below an edge that was passed the leaves go on from what the edge has left, as if the first of
them had not passed it itself. -/
theorem runs_passed {behind : Mapping}
    (ok : (pass scope edge.stages (keep scope input edge) entries fs).result = .ok behind)
    {lists : List (List Step)} (begin_with : ∀ l ∈ lists, steps ++ more <+: l)
    (nonempty : lists ≠ []) :
    runs scope lists fs =
      runs scope lists (pass scope edge.stages (keep scope input edge) entries fs).files := by
  have left := pass_keep_left passing input entries stand.ready
  have first := stand.ran ((left.grown.mono wrote).trans last)
  have through := (stand.through onFiles templates passing does wrote apart ok).ran last
  obtain ⟨l, rest, rfl⟩ := List.exists_cons_of_ne_nil nonempty
  obtain ⟨tail, rfl⟩ := begin_with l List.mem_cons_self
  refine runs_congr ?_
  rw [runAll_append_over onFiles, runAll_append_over onFiles (steps ++ more), through,
    runAll_append_over onFiles, first]
  dsimp only
  rw [does, ok]
  rfl

/-- Below an edge that failed every leaf fails, the first one for the cause that the walk has, and the
later ones for one alike. -/
theorem runs_below_refused {cause : Fault}
    (failed : (pass scope edge.stages (keep scope input edge) entries fs).result = .error cause)
    {lists : List (List Step)} (begin_with : ∀ l ∈ lists, steps ++ more <+: l)
    (nonempty : lists ≠ []) :
    (runs scope lists fs).2 = (pass scope edge.stages (keep scope input edge) entries fs).files ∧
      List.Forall₂ (Option.Rel Fault.Alike) (List.replicate lists.length (some cause))
        (runs scope lists fs).1 := by
  have left := pass_keep_left passing input entries stand.ready
  -- steps that go through the edge stop there
  have stops : ∀ g fault, (Step.runAll scope steps .null).over g = (.ok (.map entries), g) →
      (pass scope edge.stages (keep scope input edge) entries g).result = .error fault →
      ∀ l ∈ lists, (Step.runAll scope l .null).over g =
        (.error fault, (pass scope edge.stages (keep scope input edge) entries g).files) := by
    intro g fault before fails l mem
    obtain ⟨tail, rfl⟩ := begin_with l mem
    rw [runAll_append_over onFiles, runAll_append_over onFiles, before]
    dsimp only
    rw [does, fails]
    rfl
  obtain ⟨cause', alike, fails, unchanged⟩ := pass_refused_again passing stand.ready wrote failed
    (templatesApart_of_final templates last)
  have first := stops fs cause (stand.ran ((left.grown.mono wrote).trans last)) failed
  have later := stops _ cause' ((stand.later left wrote apart).ran last) fails
  rw [unchanged] at later
  obtain ⟨l, rest, rfl⟩ := List.exists_cons_of_ne_nil nonempty
  rw [runs_cons (first l List.mem_cons_self),
    runs_refused fun l mem => later l (List.mem_cons_of_mem _ mem)]
  refine ⟨rfl, .cons (.some (.refl cause)) ?_⟩
  exact forall₂_replicate (.some alike) rest.length

/-- Lists of steps that go on below an edge end as the walk has them below it, if they do where the edge
has been passed. -/
theorem runs_onward {below : Unfolding} {lists : List (List Step)}
    (begin_with : ∀ l ∈ lists, steps ++ more <+: l) (nonempty : lists ≠ [])
    (one_each : lists.length = below.size)
    (passed : ∀ behind,
      (pass scope edge.stages (keep scope input edge) entries fs).result = .ok behind →
      let files := (pass scope edge.stages (keep scope input edge) entries fs).files
      (runs scope lists files).2 = (walk scope input below behind files).files ∧
        List.Forall₂ (Option.Rel Fault.Alike) (walk scope input below behind files).ends
          (runs scope lists files).1) :
    let progress := (pass scope edge.stages (keep scope input edge) entries fs).onward below.size
      (walk scope input below)
    (runs scope lists fs).2 = progress.files ∧
      List.Forall₂ (Option.Rel Fault.Alike) progress.ends (runs scope lists fs).1 := by
  dsimp only
  cases result : (pass scope edge.stages (keep scope input edge) entries fs).result with
  | error cause =>
    have refused := runs_below_refused onFiles templates passing does stand wrote apart last result
      begin_with nonempty
    rw [one_each] at refused
    rw [Passed.onward, result]
    exact refused
  | ok behind =>
    rw [runs_passed onFiles templates passing does stand wrote apart last result begin_with nonempty,
      Passed.onward, result]
    exact passed behind result

end

/-! ## All leaves -/

theorem Walkable.size_pos {u : Unfolding} (walkable : Walkable u) (some_edge : u ≠ .done) :
    0 < u.size := by
  induction u with
  | done => exact absurd rfl some_edge
  | sink edge rest => simp [Unfolding.size]
  | node edge below rest ihBelow =>
    obtain ⟨-, -, some_below, walkableBelow, -⟩ := walkable
    have pos := ihBelow walkableBelow some_below
    rw [Unfolding.size]
    omega

theorem length_of_built {u : Unfolding} {before : List StageRef} {pipelines : List Pipeline}
    (built : (u.leaves before).mapM (build .builtIn input) = .ok pipelines) :
    pipelines.length = u.size := by
  rw [← (mapM_eq_ok.mp built).length_eq, Unfolding.length_leaves]

/-- There are as many lists of steps as leaves, and some below an edge that leads on. -/
theorem lists_of_built {u : Unfolding} {before : List StageRef} {pipelines : List Pipeline}
    (walkable : Walkable u) (some_edge : u ≠ .done)
    (built : (u.leaves before).mapM (build .builtIn input) = .ok pipelines) :
    pipelines.map (·.steps) ≠ [] ∧ (pipelines.map (·.steps)).length = u.size := by
  have one_each : (pipelines.map (·.steps)).length = u.size := by
    rw [List.length_map, length_of_built built]
  have pos := walkable.size_pos some_edge
  rw [← one_each] at pos
  exact ⟨List.length_pos_iff.mp pos, one_each⟩

theorem alike_refl (cause? : Option Fault) : Option.Rel Fault.Alike cause? cause? := by
  cases cause? with
  | none => exact .none
  | some cause => exact .some (.refl cause)

/-- What holds of an unfolding wherever a walk comes to it: its leaves, run one behind the other, end as
the walk has them end, and leave the files of the walk. -/
def EndAlike (scope : Stage.Scope) (input : Input) (written : List Location) (final : FileSystem)
    (u : Unfolding) : Prop :=
  ∀ ⦃before : List StageRef⦄ ⦃steps : List Step⦄ ⦃kept : List Location⦄ ⦃fs : FileSystem⦄
    ⦃entries : Mapping⦄ ⦃pipelines : List Pipeline⦄, LeadsTo input before steps →
    Stand scope written final kept fs steps entries →
    Grown written (walk scope input u entries fs).files final →
    (walk scope input u entries fs).written.flatten ⊆ written →
    (kept :: (walk scope input u entries fs).written).Pairwise List.Disjoint →
    (u.leaves before).mapM (build .builtIn input) = .ok pipelines →
    (runs scope (pipelines.map (·.steps)) fs).2 = (walk scope input u entries fs).files ∧
      List.Forall₂ (Option.Rel Fault.Alike) (walk scope input u entries fs).ends
        (runs scope (pipelines.map (·.steps)) fs).1

/-- A leaf does what the walk does at its edge, and the leaves of the other edges follow. -/
theorem EndAlike.sink (onFiles : scope.OnFiles) {edge : Edge} {rest : Unfolding}
    (walkable : Walkable (.sink edge rest)) (others_alike : EndAlike scope input written final rest) :
    EndAlike scope input written final (.sink edge rest) := by
  intro before steps kept fs entries pipelines leads stand last wrote once built
  obtain ⟨passing, walkable⟩ := walkable
  have left := pass_deliver_left passing input entries stand.ready
  obtain ⟨more, sinks, resolved, delivered, does⟩ :=
    sinkSteps_over onFiles input passing
  obtain ⟨others, builtRest, -⟩ := exists_pipelines onFiles walkable leads
  rw [Unfolding.leaves, List.mapM_cons, (leads.append resolved).build delivered, builtRest] at built
  cases built
  obtain ⟨result, delivers, fault⟩ := does entries fs
  rw [walk] at last wrote once ⊢
  generalize pass scope edge.stages (deliver scope input edge) entries fs = passed
    at left delivers fault last wrote once ⊢
  dsimp only at last wrote once ⊢
  rw [List.flatten_cons] at wrote
  obtain ⟨wroteHere, wroteRest⟩ := List.append_subset.mp wrote
  obtain ⟨apartKept, once⟩ := List.pairwise_cons.mp once
  have onceRest := (List.pairwise_cons.mp once).2
  -- the leaves behind this one only add to what it has left
  have lastHere : Grown written passed.files final :=
    ((walk_left walkable input entries left.ready).grown.mono wroteRest).trans last
  -- the steps on the way change nothing, so the leaf does what the walk does at the edge
  have ran : (Step.runAll scope (steps ++ more ++ sinks) .null).over fs =
      (result, passed.files) := by
    rw [List.append_assoc, runAll_append_over onFiles,
      stand.ran ((left.grown.mono wroteHere).trans lastHere)]
    exact delivers
  have stood := stand.later left wroteHere (apartKept _ List.mem_cons_self)
  obtain ⟨files, ends⟩ := others_alike leads stood last wroteRest
    (List.pairwise_cons.mpr ⟨fun w mem => apartKept w (List.mem_cons_of_mem _ mem), onceRest⟩)
    builtRest
  rw [List.map_cons, runs_cons ran, fault]
  exact ⟨files, .cons (alike_refl _) ends⟩

/-- The leaves below an edge go on from what the edge has left, and the leaves of the other edges from
what those have left. -/
theorem EndAlike.node (onFiles : scope.OnFiles) (templates : scope.TemplatesApart written final)
    {edge : Edge} {below rest : Unfolding} (walkable : Walkable (.node edge below rest))
    (below_alike : EndAlike scope input written final below)
    (others_alike : EndAlike scope input written final rest) :
    EndAlike scope input written final (.node edge below rest) := by
  intro before steps kept fs entries pipelines leads stand last wrote once built
  obtain ⟨passing, inside, some_below, walkableBelow, walkableRest⟩ := walkable
  have left := pass_keep_left passing input entries stand.ready
  obtain ⟨more, resolved, does⟩ := edgeSteps_over onFiles input passing inside
  have leadsBelow := leads.append resolved
  obtain ⟨first, builtBelow, begin_with⟩ := exists_pipelines onFiles walkableBelow leadsBelow
  obtain ⟨others, builtRest, -⟩ := exists_pipelines onFiles walkableRest leads
  rw [Unfolding.leaves, List.mapM_append, builtBelow, builtRest] at built
  cases built
  -- what the walk does at the edge, below it, and at the other edges
  rw [walk] at last wrote once ⊢
  dsimp only at last wrote once ⊢
  have innerLeft := onward_left below.size (walk_left walkableBelow input) left.ready
  obtain ⟨inner, isInner⟩ : ∃ progress, progress =
    (pass scope edge.stages (keep scope input edge) entries fs).onward below.size
      (walk scope input below) := ⟨_, rfl⟩
  rw [← isInner] at innerLeft last wrote once ⊢
  rw [List.flatten_cons, List.flatten_append] at wrote
  obtain ⟨wroteHere, wrote⟩ := List.append_subset.mp wrote
  obtain ⟨wroteBelow, wroteRest⟩ := List.append_subset.mp wrote
  obtain ⟨apartKept, once⟩ := List.pairwise_cons.mp once
  obtain ⟨apartHere, once⟩ := List.pairwise_cons.mp once
  obtain ⟨onceBelow, onceRest, -⟩ := List.pairwise_append.mp once
  -- every part of the walk only adds to what the parts before it have left
  have lastRest : Grown written inner.files final :=
    ((walk_left walkableRest input entries innerLeft.ready).grown.mono wroteRest).trans last
  have lastHere := (innerLeft.grown.mono wroteBelow).trans lastRest
  have keptHere := apartKept _ List.mem_cons_self
  -- the leaves below the edge
  have below_end : (runs scope (first.map (·.steps)) fs).2 = inner.files ∧
      List.Forall₂ (Option.Rel Fault.Alike) inner.ends (runs scope (first.map (·.steps)) fs).1 := by
    obtain ⟨nonempty, one_each⟩ := lists_of_built walkableBelow some_below builtBelow
    have ends := runs_onward onFiles templates passing does stand wroteHere keptHere lastHere
      (List.forall_mem_map.mpr begin_with) nonempty one_each
    rw [isInner]
    refine ends fun behind result => ?_
    -- the places of the edge are kept from here on
    have onceBelow : ((kept ++ (pass scope edge.stages (keep scope input edge) entries fs).places) ::
        inner.written).Pairwise List.Disjoint := by
      refine List.pairwise_cons.mpr ⟨fun w mem => ?_, onceBelow⟩
      have keptBelow := apartKept w (List.mem_cons_of_mem _ (List.mem_append_left _ mem))
      exact List.disjoint_append_left.mpr ⟨keptBelow, apartHere w (List.mem_append_left _ mem)⟩
    have stood := stand.through onFiles templates passing does wroteHere keptHere result
    rw [isInner, Passed.onward, result] at lastRest onceBelow wroteBelow
    exact below_alike leadsBelow stood lastRest wroteBelow onceBelow builtBelow
  -- the leaves of the other edges
  have stood : Stand scope written final kept inner.files steps entries := by
    refine stand.later (left.trans innerLeft) (List.append_subset.mpr ⟨wroteHere, wroteBelow⟩) ?_
    refine List.disjoint_append_right.mpr ⟨keptHere, fun place mem new => ?_⟩
    obtain ⟨w, mem', new⟩ := List.mem_flatten.mp new
    exact apartKept w (List.mem_cons_of_mem _ (List.mem_append_left _ mem')) mem new
  obtain ⟨files, ends⟩ := others_alike leads stood last wroteRest
    (List.pairwise_cons.mpr ⟨fun w mem =>
      apartKept w (List.mem_cons_of_mem _ (List.mem_append_right _ mem)), onceRest⟩) builtRest
  rw [List.map_append, runs_append, below_end.1]
  exact ⟨files, List.rel_append below_end.2 ends⟩

end

end Branchwork.Walk
