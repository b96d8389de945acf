import Branchwork.Proofs.Pipeline.Keys
import Branchwork.Proofs.Pipeline.WriteStep
import Branchwork.Proofs.Stage.Looks

/-!
# Writing on the way

A leaf marks the places at which the mapping is written on the way. Such a marker hands on the mapping
that it was given, so the stages behind it are told nothing of it, unless they look at the files. What
they look at is more than what they read: the directories on the way to a file count, and the directory
of the templates counts with all files in it. Writing makes directories, and so a marker can decide
whether a later stage succeeds although it writes to no file that is read.

Markers that change nothing in view of the other stages may be dropped from a leaf, or added to it: the
mapping that is delivered is the same.

Main results:

* `markers_are_transparent` — what a marker does, and what becomes of a leaf without some of its
  markers.
* `marker_opens_directory` — a marker that writes to no file that is read, without which a stage fails.
-/

namespace Branchwork.Pipeline

open Action Experiment FileSystem Stage

variable {scope : Stage.Scope} {input : Input} {view : View}

/-! ## What a marker does -/

/-- Values were written under their names, one after the other: each to the place that its name leads
to, where it stays unless a later one is written there. No other file was changed. -/
structure WroteAll (scope : Stage.Scope) (rows : List (String × Value)) (w w' : World)
    (files : List (Location × String)) : Prop where
  ran : ∃ results, (writeEntries scope rows).on w = (.ok results, w')
  each : List.Forall₂ (fun row file => WrittenTo scope w'.files row.1 row.2 file) rows files
  last : ∀ place text, files.reverse.lookup place = some text →
    w'.files.get? place = some (.file (Utf8.encode text))
  grown : Grown (files.map (·.1)) w.files w'.files

/-- What a step that writes on the way comes to is what it was given. -/
theorem materializer_eq_ok {target : String} {v r : Value} {w w' : World}
    (ran : ((materializer input target).run scope v).on w = (.ok r, w')) :
    r = v ∧ ∃ written, (Step.runAll scope (writers input target) v).on w = (.ok written, w') := by
  rw [run_materializer] at ran
  obtain ⟨written, wrote, same⟩ := on_map_eq_ok.mp ran
  exact ⟨same.symm, written, wrote⟩

/-- No captures are asked for to write. -/
theorem captures_materializer {target : String} {v r : Value} {w w' : World}
    (ran : ((materializer input target).run scope v).on w = (.ok r, w')) :
    w'.captures = w.captures := by
  obtain ⟨-, written, wrote⟩ := materializer_eq_ok ran
  have writing : Writing input target (writers input target) := .sink (writeSteps_eq input target)
  rw [writing.device] at wrote
  have kept := (Step.filesOnly_runAll (onFiles_of_device_none scope) (writers input target) v).kept w
  rw [wrote] at kept
  exact kept.1

theorem exists_wroteAll {target : String} {entries : List (String × Value)} {r : Value}
    {w w' : World}
    (ran : ((materializer input target).run scope (.map (Mapping.ofTexts entries))).on w =
      (.ok r, w')) :
    (entries.map fun entry => nameFor input target entry.1).Nodup ∧
      ∃ files, WroteAll scope (named input target entries) w w' files := by
  obtain ⟨-, written, wrote⟩ := materializer_eq_ok ran
  have writing : Writing input target (writers input target) := .sink (writeSteps_eq input target)
  obtain ⟨distinct, files, each, last, grown⟩ := writing.exists_files wrote
  rw [runAll_writers_named distinct] at wrote
  obtain ⟨results, ran, -⟩ := on_map_eq_ok.mp wrote
  exact ⟨distinct, files, ⟨results, ran⟩, List.forall₂_map_left_iff.mpr each, last, grown⟩

/-! ## The stages of a leaf -/

theorem resolve_marker {ref : StageRef} {target : String} (marker : markerTarget? ref = some target) :
    resolve .builtIn input ref = .ok (materializer input target) := by
  cases ref with
  | materialize _ =>
    cases marker
    exact materializeStep_eq input target
  | named stageName =>
    rw [resolve, show materializeTarget? stageName = some target from marker]
    exact materializeStep_eq input target

theorem within_onValues {s : Stage} {v : Value}
    (looks : ∀ entries, v = .map entries → ∀ entry ∈ entries, s.Looks scope view entry.2) :
    Within view (Step.run scope (.onValues (.stage s)) v) := by
  rw [Step.run, Step.run_stage]
  refine (within_ofExcept .shape v.entries).bind fun entries _ _ ok => ?_
  have isMap : v = .map entries := by
    obtain ⟨ok, -⟩ := on_ofExcept_eq_ok.mp ok
    cases v <;> cases ok
    rfl
  refine (Mapping.within_mapValues fun entry mem => ?_).bind fun _ _ _ _ => within_pure _
  exact within_run (looks entries isMap entry mem)

theorem within_perValue {s : Stage} {v : Value}
    (looks : ∀ entries, v = .map entries → ∀ entry ∈ entries, s.Looks scope view entry.2) :
    Within view ((Walk.perValue s).run scope v) := by
  unfold Walk.perValue
  split
  · rw [Step.run, Step.runAll]
    refine (within_onValues looks).bind fun r _ _ _ => ?_
    rw [Step.runAll, Step.run]
    refine Within.bind ?_ fun joined _ _ _ => ?_
    · exact (within_ofExcept .shape r.entries).bind fun _ _ _ _ => within_pure _
    · rw [Step.runAll]
      exact within_pure joined
  · exact within_onValues looks

/-! ## Leaves without some of their markers -/

/-- The stages of a leaf, and what is left of them when some markers are dropped. -/
inductive Drops : List StageRef → List StageRef → Prop
  | done : Drops [] []
  | kept {ref full fewer} : Drops full fewer → Drops (ref :: full) (ref :: fewer)
  | dropped {ref target full fewer} : markerTarget? ref = some target → Drops full fewer →
      Drops (ref :: full) fewer

/-- The stages of a leaf run from a value in a world, and the markers among them do not disturb the
others: every marker that is reached succeeds and changes nothing in view, and what the other stages
look at is in view. -/
inductive Undisturbed (scope : Stage.Scope) (input : Input) (view : View) :
    List StageRef → Value → World → Prop
  | done {v w} : Undisturbed scope input view [] v w
  | marker {ref target rest v r w w'} : markerTarget? ref = some target →
      ((materializer input target).run scope v).on w = (.ok r, w') →
      Alike view w.files w'.files → Undisturbed scope input view rest r w' →
      Undisturbed scope input view (ref :: rest) v w
  | stage {s : Stage} {rest v w} :
      (∀ entries, v = .map entries → ∀ entry ∈ entries, s.Looks scope view entry.2) →
      (∀ r w', ((Walk.perValue s).run scope v).on w = (.ok r, w') →
        Undisturbed scope input view rest r w') →
      Undisturbed scope input view (.named s.name :: rest) v w

/-- A marker that does not disturb the others hands on the value in a world that is alike. -/
theorem Undisturbed.of_marker {ref : StageRef} {rest : List StageRef} {target : String} {v : Value}
    {w : World} (undisturbed : Undisturbed scope input view (ref :: rest) v w)
    (marker : markerTarget? ref = some target) :
    ∃ w', ((materializer input target).run scope v).on w = (.ok v, w') ∧ World.Alike view w w' ∧
      Undisturbed scope input view rest v w' := by
  cases undisturbed with
  | marker same ran alike later =>
    rw [marker] at same
    cases same
    obtain ⟨rfl, -⟩ := materializer_eq_ok ran
    exact ⟨_, ran, ⟨alike, (captures_materializer ran).symm⟩, later⟩
  | @stage s _ _ _ _ _ =>
    rw [markerTarget?_name] at marker
    cases marker

/-- A stage that is no marker looks at nothing outside the view. -/
theorem Undisturbed.of_stage {ref : StageRef} {rest : List StageRef} {step : Step} {v : Value}
    {w : World} (undisturbed : Undisturbed scope input view (ref :: rest) v w)
    (stage : markerTarget? ref = none) (resolved : resolve .builtIn input ref = .ok step) :
    Within view (step.run scope v) ∧ ∀ r w', (step.run scope v).on w = (.ok r, w') →
      Undisturbed scope input view rest r w' := by
  cases undisturbed with
  | marker marker _ _ _ =>
    rw [stage] at marker
    cases marker
  | stage looks later =>
    rw [Walk.resolve_name] at resolved
    cases resolved
    exact ⟨within_perValue looks, later⟩

/-- The first stage of two lists, run from one value in worlds that are alike. It fails in both for one
reason, or it comes to one value in worlds that are alike. -/
theorem Undisturbed.alongside {ref : StageRef} {rest rest' : List StageRef} {step : Step} {v : Value}
    {w u : World} (undisturbed : Undisturbed scope input view (ref :: rest) v w)
    (undisturbed' : Undisturbed scope input view (ref :: rest') v u) (alike : World.Alike view w u)
    (resolved : resolve .builtIn input ref = .ok step) :
    (∃ fault w' u', (step.run scope v).on w = (.error fault, w') ∧
        (step.run scope v).on u = (.error fault, u')) ∨
      ∃ r w' u', (step.run scope v).on w = (.ok r, w') ∧ (step.run scope v).on u = (.ok r, u') ∧
        World.Alike view w' u' ∧ Undisturbed scope input view rest r w' ∧
        Undisturbed scope input view rest' r u' := by
  cases kind : markerTarget? ref with
  | some target =>
    -- each side is alike to itself before the marker, and so the two are alike behind it
    rw [resolve_marker kind] at resolved
    cases resolved
    obtain ⟨w', ran, same, later⟩ := undisturbed.of_marker kind
    obtain ⟨u', ran', same', later'⟩ := undisturbed'.of_marker kind
    exact .inr ⟨v, w', u', ran, ran', (same.symm.trans alike).trans same', later, later'⟩
  | none =>
    obtain ⟨within, later⟩ := undisturbed.of_stage kind resolved
    obtain ⟨-, later'⟩ := undisturbed'.of_stage kind resolved
    obtain ⟨same, behind⟩ := within w u alike
    rcases ran : (step.run scope v).on w with ⟨fault | r, w'⟩ <;>
      rcases ran' : (step.run scope v).on u with ⟨fault' | r', u'⟩ <;>
      rw [ran, ran'] at same behind <;> cases same
    · exact .inl ⟨fault, w', u', rfl, rfl⟩
    · exact .inr ⟨r, w', u', rfl, rfl, behind, later r w' ran, later' r u' ran'⟩

/-- Two runs that start from one value in worlds that are alike, one of them without some of the markers
of the other, come to the same. -/
theorem Drops.runAll {full fewer : List StageRef} (drops : Drops full fewer)
    {steps steps' : List Step}
    (resolved : List.Forall₂ (fun ref step => resolve .builtIn input ref = .ok step) full steps)
    (resolved' : List.Forall₂ (fun ref step => resolve .builtIn input ref = .ok step) fewer steps')
    {v : Value} {w u : World} (alike : World.Alike view w u)
    (undisturbed : Undisturbed scope input view full v w)
    (undisturbed' : Undisturbed scope input view fewer v u) :
    ((Step.runAll scope steps v).on w).1 = ((Step.runAll scope steps' v).on u).1 := by
  induction drops generalizing steps steps' v w u with
  | done =>
    cases resolved
    cases resolved'
    rw [Step.runAll_nil_on, Step.runAll_nil_on]
  | dropped marker _ ih =>
    -- one side writes while the other stands still, and the value is the same behind it
    cases resolved with
    | cons first later =>
      rw [resolve_marker marker] at first
      cases first
      obtain ⟨w', ran, same, rest⟩ := undisturbed.of_marker marker
      rw [Step.runAll_cons_on, ran]
      exact ih later resolved' (same.symm.trans alike) rest undisturbed'
  -- both sides take the same step, in worlds that are alike to it
  | kept _ ih =>
    cases resolved with
    | cons first later =>
      cases resolved' with
      | cons first' later' =>
        rw [first] at first'
        cases first'
        rw [Step.runAll_cons_on, Step.runAll_cons_on]
        rcases undisturbed.alongside undisturbed' alike first with
          ⟨fault, w', u', ran, ran'⟩ | ⟨r, w', u', ran, ran', behind, rest, rest'⟩
        · rw [ran, ran']
        · rw [ran, ran']
          exact ih later later' behind rest rest'

/-- What is left of the stages of a leaf has its steps if the leaf has them. -/
theorem Drops.resolved {full fewer : List StageRef} (drops : Drops full fewer) {steps : List Step}
    (resolved : full.mapM (resolve .builtIn input) = .ok steps) :
    ∃ steps', fewer.mapM (resolve .builtIn input) = .ok steps' := by
  refine mapM_isOk fun ref mem => ?_
  have isOld : ref ∈ full := by
    clear resolved
    induction drops with
    | done => exact mem
    | dropped _ _ ih => exact List.mem_cons_of_mem _ (ih mem)
    | kept _ ih =>
      rcases List.mem_cons.mp mem with rfl | mem
      · exact List.mem_cons_self
      · exact List.mem_cons_of_mem _ (ih mem)
  obtain ⟨step, -, first⟩ := exists_of_forall₂ (mapM_eq_ok.mp resolved) isOld
  exact ⟨step, first⟩

/-- A marker that succeeds hands on the mapping that it was given. It has written every value, in order,
to the place that its output name leads to, and no other file. And a leaf without some of its markers
delivers what it delivers with them, as long as those that are dropped and those that are kept succeed
and change nothing that the other stages look at. -/
theorem markers_are_transparent (scope : Stage.Scope) (input : Input) :
    (∀ (ref : StageRef) target step, markerTarget? ref = some target →
      resolve .builtIn input ref = .ok step →
      ∀ (entries : List (String × Value)) r w w',
        (step.run scope (.map (Mapping.ofTexts entries))).on w = (.ok r, w') →
        r = .map (Mapping.ofTexts entries) ∧
        (entries.map fun entry => nameFor input target entry.1).Nodup ∧
        ∃ files, WroteAll scope (named input target entries) w w' files) ∧
    ∀ full fewer output p (view : View) w, Drops full fewer →
      build .builtIn input ⟨full, output⟩ = .ok p →
      (∀ source v mid, inputSteps .builtIn input = .ok source →
        (Step.runAll scope source .null).on w = (.ok v, mid) → mid.files.places.Nodup ∧
          Undisturbed scope input view full v mid ∧ Undisturbed scope input view fewer v mid) →
      ∃ p' delivering delivering' sink, build .builtIn input ⟨fewer, output⟩ = .ok p' ∧
        p.steps = delivering ++ sink ∧ p'.steps = delivering' ++ sink ∧
        sinkSteps .builtIn input output = .ok sink ∧
        ((Step.runAll scope delivering .null).on w).1 =
          ((Step.runAll scope delivering' .null).on w).1 := by
  refine ⟨fun ref target step marker resolved entries r w w' ran => ?_,
    fun full fewer output p view w drops built undisturbed => ?_⟩
  · rw [resolve_marker marker] at resolved
    cases resolved
    exact ⟨(materializer_eq_ok ran).1, exists_wroteAll ran⟩
  · obtain ⟨source, steps, sink, okSource, okSteps, okSink, rfl⟩ := Walk.build_eq_ok.mp built
    obtain ⟨steps', okSteps'⟩ := drops.resolved okSteps
    refine ⟨⟨input, ⟨fewer, output⟩, source ++ steps' ++ sink⟩, source ++ steps, source ++ steps', sink,
      ?_, rfl, rfl, okSink, ?_⟩
    · exact Walk.build_eq_ok.mpr ⟨source, steps', sink, okSource, okSteps', okSink, rfl⟩
    · -- the source is the same, and behind it the worlds are one
      rw [Step.runAll_append, Step.runAll_append, on_bind, on_bind]
      rcases ran : (Step.runAll scope source .null).on w with ⟨fault | v, mid⟩
      · rfl
      · obtain ⟨once, whole, left⟩ := undisturbed source v mid okSource ran
        exact drops.runAll (mapM_eq_ok.mp okSteps) (mapM_eq_ok.mp okSteps') ⟨.refl once, rfl⟩ whole left

/-! ## A leaf with a template behind a marker -/

/-- The entries of a mapping of texts that a run comes to. -/
def texts? (result : Except Fault Value) : Option (List (String × String)) :=
  match result with
  | .ok (.map entries) => entries.mapM fun
    | (.text key, .text text) => some (key, text)
    | _ => none
  | _ => none

theorem texts?_eq_some {result : Except Fault Value} {rows : List (String × String)}
    (h : texts? result = some rows) :
    result = .ok (.map (Mapping.ofTexts (rows.map fun row => (row.1, .text row.2)))) := by
  unfold texts? at h
  split at h
  · rename_i entries
    congr 2
    induction entries generalizing rows with
    | nil =>
      cases h
      rfl
    | cons entry rest ih =>
      rw [List.mapM_cons] at h
      obtain ⟨row, first, h⟩ := Option.bind_eq_some_iff.mp h
      obtain ⟨more, later, last⟩ := Option.bind_eq_some_iff.mp h
      cases last
      split at first <;> cases first
      rw [ih later]
      rfl
  · cases h

/-- The directory of templates that a run has not found. -/
def missed? (result : Except Fault Value) : Option String :=
  match result with
  | .error (.noTemplates directory) => some directory
  | _ => none

theorem missed?_eq_some {result : Except Fault Value} {directory : String}
    (h : missed? result = some directory) : result = .error (.noTemplates directory) := by
  unfold missed? at h
  split at h <;> cases h
  rfl

/-- What the stages of the leaves below are given. -/
def letterSteps : List Step := [.fileNames "a.txt", .asKeys, .onValues (.stage .fileToString)]

/-- The world behind that. -/
def letterWorld (fs : FileSystem) : World :=
  ((Step.runAll Walk.bareScope letterSteps .null).on (.start fs)).2

/-- What is read from the file. -/
def letter : Value := .map (Mapping.ofTexts [("a.txt", .text "A")])

/-- A file with a template beside it. -/
def templated : FileSystem :=
  ⟨[(["a.txt"], .file [65]), (["templates"], .directory), (["templates", "t.txt"], .file [66])]⟩

/-- The directory of the templates is seen, with the files in it. -/
def templatesView : View
  | [] | ["templates"] => .everything
  | ["templates", _] => .file
  | _ => .nothing

theorem template_looks (v : Value) : Stage.template.Looks Walk.bareScope templatesView v := by
  refine ⟨by unfold Sees; decide +kernel, fun place last name => ?_⟩
  have there : (trail (base Walk.bareScope.host.current (Walk.bareScope.settings.resolve
      Walk.bareScope.settings.templateDir)) (Walk.bareScope.settings.resolve
      Walk.bareScope.settings.templateDir).parts).getLast? = some ["templates"] := by decide +kernel
  rw [there] at last
  cases last
  nofun

/-- A marker that writes beside the templates hands on what it was given, and it may be dropped in front
of them. -/
theorem marker_beside_templates :
    (∃ mid w' files, ((materializer Walk.theFile "m.txt").run Walk.bareScope letter).on mid =
      (.ok letter, w') ∧
      WroteAll Walk.bareScope (named Walk.theFile "m.txt" [("a.txt", .text "A")]) mid w' files) ∧
    ∃ p p' delivering delivering' sink,
      build .builtIn Walk.theFile ⟨[.materialize "m.txt", .named "template"], "out"⟩ = .ok p ∧
      build .builtIn Walk.theFile ⟨[.named "template"], "out"⟩ = .ok p' ∧
      p.steps = delivering ++ sink ∧ p'.steps = delivering' ++ sink ∧
      ((Step.runAll Walk.bareScope delivering .null).on (.start templated)).1 =
        ((Step.runAll Walk.bareScope delivering' .null).on (.start templated)).1 := by
  have reads : texts? ((Step.runAll Walk.bareScope letterSteps .null).on (.start templated)).1 =
      some [("a.txt", "A")] := by decide +kernel
  have ran : (Step.runAll Walk.bareScope letterSteps .null).on (.start templated) =
      (.ok letter, letterWorld templated) := Prod.ext (texts?_eq_some reads) rfl
  have files : (letterWorld templated).files = templated := congrArg FileSystem.mk (by decide +kernel)
  have writes : texts? (((materializer Walk.theFile "m.txt").run Walk.bareScope letter).on
      (letterWorld templated)).1 = some [("a.txt", "A")] := by decide +kernel
  obtain ⟨w', wrote, behind⟩ : ∃ w', ((materializer Walk.theFile "m.txt").run Walk.bareScope letter).on
      (letterWorld templated) = (.ok letter, w') ∧ w'.files = templated.put ["m.txt"] (.file [65]) :=
    ⟨_, Prod.ext (texts?_eq_some writes) rfl, congrArg FileSystem.mk (by decide +kernel)⟩
  obtain ⟨transparent, dropping⟩ := markers_are_transparent Walk.bareScope Walk.theFile
  obtain ⟨-, -, written, wroteAll⟩ := transparent (.materialize "m.txt") "m.txt" _ rfl rfl
    [("a.txt", .text "A")] letter _ w' wrote
  have stage : ∀ w, Undisturbed Walk.bareScope Walk.theFile templatesView [.named "template"]
      letter w := fun w => .stage (s := .template)
        (fun _ _ entry _ => template_looks entry.2) fun _ _ _ => .done
  -- the file that is written lies beside the directory, so the view does not see it
  have alike : Alike templatesView (letterWorld templated).files w'.files := by
    rw [files, behind]
    refine ⟨by decide, nodup_places_put (by decide) _ _, fun place => ?_⟩
    rw [get?_put _ (by simp)]
    split
    · rename_i beside
      rw [beside]
      rfl
    · rfl
  obtain ⟨p', delivering, delivering', sink, built', steps, steps', -, same⟩ :=
    dropping [.materialize "m.txt", .named "template"] [.named "template"] "out" _ templatesView
      (.start templated) (.dropped rfl (.kept .done)) rfl fun source v' mid' okSource ran' => by
        cases okSource
        change (Step.runAll Walk.bareScope letterSteps .null).on _ = _ at ran'
        rw [ran] at ran'
        cases ran'
        exact ⟨by rw [files]; decide, .marker rfl wrote alike (stage w'), stage _⟩
  exact ⟨⟨_, w', written, wrote, wroteAll⟩, _, p', delivering, delivering', sink, rfl, built', steps,
    steps', same⟩

/-- Without templates the stage that renders them fails. With a marker in front of it that writes below
their directory it succeeds: the marker writes one file, of which nothing is read. -/
theorem marker_opens_directory :
    Drops [.materialize "templates/sub/x", .named "template"] [.named "template"] ∧
    ∃ p p' delivering delivering' sink,
      build .builtIn Walk.theFile ⟨[.materialize "templates/sub/x", .named "template"], "out"⟩ = .ok p ∧
      build .builtIn Walk.theFile ⟨[.named "template"], "out"⟩ = .ok p' ∧
      p.steps = delivering ++ sink ∧ p'.steps = delivering' ++ sink ∧
      (∃ v mid w',
        (Step.runAll Walk.bareScope letterSteps .null).on (.start Walk.oneFile) = (.ok v, mid) ∧
        mid.files = Walk.oneFile ∧
        ((materializer Walk.theFile "templates/sub/x").run Walk.bareScope v).on mid = (.ok v, w') ∧
        w'.files = ⟨Walk.oneFile.entries ++ [(["templates"], .directory),
          (["templates", "sub"], .directory), (["templates", "sub", "x"], .file [65])]⟩ ∧
        fileNames w'.files ["templates"] = []) ∧
      ((Step.runAll Walk.bareScope delivering .null).on (.start Walk.oneFile)).1 = .ok (.map []) ∧
      ((Step.runAll Walk.bareScope delivering' .null).on (.start Walk.oneFile)).1 =
        .error (.noTemplates "/templates") := by
  have reads : texts? ((Step.runAll Walk.bareScope letterSteps .null).on (.start Walk.oneFile)).1 =
      some [("a.txt", "A")] := by decide +kernel
  have writes : texts? (((materializer Walk.theFile "templates/sub/x").run Walk.bareScope letter).on
      (letterWorld Walk.oneFile)).1 = some [("a.txt", "A")] := by decide +kernel
  have delivers : texts? ((Step.runAll Walk.bareScope (letterSteps ++
      [materializer Walk.theFile "templates/sub/x", Walk.perValue .template]) .null).on
      (.start Walk.oneFile)).1 = some [] := by decide +kernel
  have fails : missed? ((Step.runAll Walk.bareScope (letterSteps ++ [Walk.perValue .template]) .null).on
      (.start Walk.oneFile)).1 = some "/templates" := by decide +kernel
  exact ⟨.dropped rfl (.kept .done), _, _,
    letterSteps ++ [materializer Walk.theFile "templates/sub/x", Walk.perValue .template],
    letterSteps ++ [Walk.perValue .template], writers Walk.theFile "out", rfl, rfl, rfl, rfl,
    ⟨letter, letterWorld Walk.oneFile, _, Prod.ext (texts?_eq_some reads) rfl,
      congrArg FileSystem.mk (by decide +kernel), Prod.ext (texts?_eq_some writes) rfl,
      congrArg FileSystem.mk (by decide +kernel), by decide +kernel⟩,
    texts?_eq_some delivers, missed?_eq_some fails⟩

end Branchwork.Pipeline
