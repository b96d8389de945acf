import Branchwork.Proofs.Pipeline.Keys
import Branchwork.Proofs.Pipeline.Materialize
import Branchwork.Proofs.Stage.Selection
import Branchwork.Proofs.Text.Utf8

/-!
# Files that are copied as text

An input that is read as text, and edges that list no stages but `nullFilter`: such a pipeline copies
files. The names that the pattern selects are read before anything is written, whatever else is written
on the way, and at the end each text is written under its output name.

What is copied is the text, not its bytes. A file is read with every line end as a line feed, and it is
written as it was read, so a copy has the bytes of its file exactly if there is no carriage return
among them. And where two output names lead to one place, the later copy stands there.

Main result: `copies_texts`.
-/

namespace Branchwork

open Action Experiment

/-! ## Running to the end -/

namespace Pipeline

/-- A pipeline that succeeds has come to the end of its steps. -/
theorem runSteps_success {scope : Stage.Scope} {label : String} {index : Nat} {done : List Trace}
    {steps : List Step} {v : Value} {w : World}
    (succeeded : (StateT.run (runSteps scope label index done steps v) w).1.isSuccess = true) :
    ∃ r, (Step.runAll scope steps v).on w =
      (.ok r, (StateT.run (runSteps scope label index done steps v) w).2) := by
  induction steps generalizing index done v w with
  | nil => exact ⟨v, Step.runAll_nil_on v w⟩
  | cons step rest ih =>
    rw [runSteps_cons] at succeeded ⊢
    rw [Step.runAll_cons_on]
    rcases ran : (step.run scope v).on w with ⟨cause | y, mid⟩ <;> rw [ran] at succeeded
    · cases succeeded
    · exact ih succeeded

theorem run_success {scope : Stage.Scope} {p : Pipeline} {w w' : World} {outcome : Outcome}
    (ran : (p.run scope).run w = (outcome, w')) (succeeded : outcome.isSuccess = true) :
    ∃ r behind, (Step.runAll scope p.steps .null).on w = (.ok r, behind) ∧
      w'.files = behind.files := by
  have outcome_eq := outcome_run scope p w
  have files_eq := files_run scope p w
  rw [ran] at outcome_eq files_eq
  dsimp only at outcome_eq files_eq
  rw [outcome_eq] at succeeded
  obtain ⟨r, comes⟩ := runSteps_success succeeded
  exact ⟨r, _, comes, files_eq⟩

end Pipeline

/-! ## Reading every name -/

/-- An action that only reads comes to the same over the files of the world. -/
theorem Action.over_of_reads {α : Type} {a : Action α} (only : FilesOnly a) (reads : Reads a)
    {w w' : World} {x : α} (ran : a.on w = (.ok x, w')) :
    a.over w.files = (.ok x, w.files) ∧ w'.files = w.files := by
  obtain ⟨same, files⟩ := only.agree w
  rw [ran] at same files
  have kept := reads w.files
  exact ⟨Prod.ext same.symm kept, files.trans kept⟩

/-- What only reads reads all values of a mapping from the same files. -/
theorem Mapping.mapValues_of_reads {action : Value → Action Value} (only : ∀ v, FilesOnly (action v))
    (reads : ∀ v, Reads (action v)) {rows : List (String × Value)} {entries : Mapping} {w w' : World}
    (ran : ((ofTexts rows).mapValues action).on w = (.ok entries, w')) :
    w'.files = w.files ∧ ∃ rows', entries = ofTexts rows' ∧ List.Forall₂ (fun row row' =>
      row'.1 = row.1 ∧ (action row.2).over w.files = (.ok row'.2, w.files)) rows rows' := by
  induction rows generalizing entries w with
  | nil =>
    cases ran
    exact ⟨rfl, [], rfl, .nil⟩
  | cons first rest ih =>
    rw [ofTexts_cons, mapValues] at ran
    obtain ⟨v, mid, here, ran⟩ := on_bind_eq_ok.mp ran
    obtain ⟨more, last, others, ran⟩ := on_bind_eq_ok.mp ran
    cases ran
    obtain ⟨there, same⟩ := over_of_reads (only _) (reads _) here
    obtain ⟨kept, rows', rfl, each⟩ := ih others
    rw [same] at kept each
    exact ⟨kept, (first.1, v) :: rows', rfl, .cons ⟨rfl, there⟩ each⟩

/-- What is put under a key stays there, whatever is put behind it. -/
theorem Mapping.mem_foldlM_put {names : List String} {start rows : List (String × Value)}
    (folded : (names.map Value.text).foldlM (fun entries name => do
      return put (← name.key) name entries) (ofTexts start) =
        (.ok (ofTexts rows) : Except ShapeProblem _))
    {name : String} (mem : name ∈ start.map (·.1) ∨ name ∈ names) : name ∈ rows.map (·.1) := by
  induction names generalizing start with
  | nil =>
    rw [← ofTexts_injective (Except.ok.inj folded)]
    simpa using mem
  | cons first rest ih =>
    obtain ⟨mid, same, keys, -⟩ := put_ofTexts first (.text first) start
    have key : (Value.text first).key = .ok (.text first) := rfl
    rw [List.map_cons, List.foldlM_cons, key] at folded
    change (pure (put (.text first) (.text first) (ofTexts start)) >>= fun entries => _) = _
      at folded
    rw [same] at folded
    refine ih folded ?_
    rw [keys]
    by_cases here : name = first
    · left
      split <;> simp_all
    · refine mem.imp (fun old => ?_) fun later => (List.mem_cons.mp later).resolve_left here
      split <;> simp_all

/-- Every name is the key of an entry. -/
theorem Mapping.mem_ofKeys {names : List String} {rows : List (String × Value)}
    (keyed : ofKeys (names.map .text) = .ok (ofTexts rows)) :
    ∀ name ∈ names, name ∈ rows.map (·.1) := by
  intro name mem
  have folded : (names.map Value.text).foldlM (fun entries name => do
      return put (← name.key) name entries) (ofTexts []) =
        (.ok (ofTexts rows) : Except ShapeProblem _) := by
    cases names with
    | nil => cases mem
    | cons first rest => exact keyed
  exact mem_foldlM_put folded (.inr mem)

namespace Stage

variable {scope : Scope}

/-- A file that is read as text is read as UTF-8, with line feeds for line ends. -/
theorem readText_eq_ok {p : Path} {fs : FileSystem} {text : String}
    (ran : (scope.readText p).over fs = (.ok text, fs)) :
    ∃ read, fs.readFile scope.host.current p = .ok (Utf8.encode read) ∧
      text = String.ofList (Text.unifyLineEnds read.toList) := by
  rw [readText_over, (reads_checkPath p).over_eq] at ran
  rcases checked : ((checkPath p).over fs).1 with fault | _ <;> rw [checked] at ran
  · cases ran
  · have came := congrArg Prod.fst ran
    obtain ⟨bytes, opened, came⟩ := bind_eq_ok (f := textOf).mp came
    rw [textOf] at came
    obtain ⟨read, decoded, rfl⟩ := map_eq_ok.mp came
    refine ⟨read, ?_, rfl⟩
    rw [Utf8.encode_of_decode (mapError_eq_ok.mp decoded)]
    exact mapError_eq_ok.mp opened

end Stage

namespace Pipeline

variable {scope : Stage.Scope} {input : Input} {w w' : World}

/-! ## The parts of a pipeline that copies -/

/-- A stage of a leaf that hands on the mapping that it is given: a marker, or the filter that filters
nothing. -/
def HandsOn (ref : StageRef) : Prop := (markerTarget? ref).isSome ∨ ref = .named "nullFilter"

theorem mapValues_nullFilter (scope : Stage.Scope) (entries : Mapping) :
    entries.mapValues (Stage.nullFilter.run scope) = pure entries := by
  induction entries with
  | nil => rfl
  | cons entry rest ih => rw [Mapping.mapValues, ih]; rfl

/-- What a stage that hands on comes to is what it was given. -/
theorem HandsOn.run_eq_ok {ref : StageRef} (handsOn : HandsOn ref) {step : Step}
    (resolved : resolve .builtIn input ref = .ok step) {entries : Mapping} {r : Value}
    (ran : (step.run scope (.map entries)).on w = (.ok r, w')) : r = .map entries := by
  rcases handsOn with marker | rfl
  · obtain ⟨target, marker⟩ := Option.isSome_iff_exists.mp marker
    rw [resolve_marker marker] at resolved
    cases resolved
    exact (materializer_eq_ok ran).1
  · have filter : resolve .builtIn input (.named "nullFilter") =
        .ok (.onValues (.stage .nullFilter)) := Walk.resolve_name input .nullFilter
    rw [filter] at resolved
    cases resolved
    rw [Step.run_onValues, Step.run_stage, mapValues_nullFilter, pure_bind] at ran
    cases ran
    rfl

theorem runAll_handsOn {refs : List StageRef} {steps : List Step}
    (resolved : List.Forall₂ (fun ref step => resolve .builtIn input ref = .ok step) refs steps)
    (handOn : ∀ ref ∈ refs, HandsOn ref) {entries : Mapping} {r : Value}
    (ran : (Step.runAll scope steps (.map entries)).on w = (.ok r, w')) : r = .map entries := by
  induction resolved generalizing w with
  | nil => cases ran; rfl
  | cons first _ ih =>
    obtain ⟨y, mid, here, ran⟩ := Step.runAll_cons_eq_ok.mp ran
    obtain rfl := (handOn _ List.mem_cons_self).run_eq_ok first here
    exact ih (fun ref mem => handOn ref (List.mem_cons_of_mem _ mem)) ran

/-- Text as it is read from a file: with line feeds for line ends. -/
def asRead (text : String) : String := String.ofList (Text.unifyLineEnds text.toList)

/-- A name is read as the text of its file. -/
theorem reader_eq_ok (isText : input.kind = .fileText) {name : String} {v : Value} {fs : FileSystem}
    (ran : ((Walk.reader input).run scope (.text name)).over fs = (.ok v, fs)) :
    ∃ read, fs.readFile scope.host.current (scope.target name) = .ok (Utf8.encode read) ∧
      v = .text (asRead read) := by
  have reads : (Walk.reader input).run scope (.text name) =
      .text <$> scope.readText (scope.target name) := by
    have path : (do scope.readText (← ofShape (scope.path (.text name)))) =
        scope.readText (scope.target name) := pure_bind (scope.target name) _
    rw [Walk.reader_eq, map_eq_pure_bind, path]
    simp only [isText, if_true]
  rw [reads, over_map] at ran
  obtain ⟨text, came, rfl⟩ := map_eq_ok.mp (Prod.mk.inj ran).1
  obtain ⟨read, opened, rfl⟩ := Stage.readText_eq_ok (Prod.ext came (Stage.reads_readText _ fs))
  exact ⟨read, opened, rfl⟩

/-- Names that are put under themselves are read as the texts of their files. -/
theorem exists_texts (isText : input.kind = .fileText) {fs : FileSystem}
    {keys rows : List (String × Value)} (each : ∀ key ∈ keys, key.2 = .text key.1)
    (read : List.Forall₂ (fun key row => row.1 = key.1 ∧
      ((Walk.reader input).run scope key.2).over fs = (.ok row.2, fs)) keys rows) :
    ∃ texts : List (String × String), texts.map (·.1) = keys.map (·.1) ∧
      rows = texts.map (fun row => (row.1, .text (asRead row.2))) ∧ ∀ row ∈ texts,
        fs.readFile scope.host.current (scope.target row.1) = .ok (Utf8.encode row.2) := by
  induction read with
  | nil => exact ⟨[], rfl, rfl, by simp⟩
  | @cons key row keys rows first _ ih =>
    obtain ⟨texts, same, rfl, opened⟩ := ih fun key mem => each key (List.mem_cons_of_mem _ mem)
    obtain ⟨sameKey, ran⟩ := first
    rw [each key List.mem_cons_self] at ran
    obtain ⟨text, here, value⟩ := reader_eq_ok isText ran
    refine ⟨(key.1, text) :: texts, by rw [List.map_cons, List.map_cons, same], ?_, ?_⟩
    · rw [List.map_cons, ← sameKey, ← value]
    · intro row mem
      rcases List.mem_cons.mp mem with rfl | mem
      · exact here
      · exact opened row mem

/-- An input that is read as text comes to its names with the texts of their files. No file is changed
on the way. -/
theorem runAll_textInput (isText : input.kind = .fileText) {v : Value}
    (ran : (Step.runAll scope [.fileNames input.pattern, .asKeys,
      .onValues (.stage (Walk.reader input))] .null).on w = (.ok v, w')) :
    w'.files = w.files ∧ ∃ (found : List String) (rows : List (String × String)),
      w.files.glob scope.host.current scope.settings.workDir input.pattern = .ok found ∧
      (rows.map (·.1)).Nodup ∧
      (∀ name, name ∈ rows.map (·.1) ↔
        name ∈ found ∧ Pattern.matchesName input.pattern name = true) ∧
      (∀ row ∈ rows,
        w.files.readFile scope.host.current (scope.target row.1) = .ok (Utf8.encode row.2)) ∧
      v = .map (Mapping.ofTexts (rows.map fun row => (row.1, .text (asRead row.2)))) := by
  obtain ⟨y, w₁, named, ran⟩ := Step.runAll_cons_eq_ok.mp ran
  obtain ⟨z, w₂, keyed, ran⟩ := Step.runAll_cons_eq_ok.mp ran
  obtain ⟨u, w₃, read, ran⟩ := Step.runAll_cons_eq_ok.mp ran
  cases ran
  -- the names are searched for
  rw [Step.run] at named
  obtain ⟨names, mid, searched, last⟩ := on_bind_eq_ok.mp named
  cases last
  obtain ⟨found, globbed, rfl⟩ := Stage.findFiles_eq_ok searched
  obtain ⟨-, same₁⟩ := over_of_reads (Stage.filesOnly_findFiles scope input.pattern)
    (Stage.reads_findFiles input.pattern) searched
  -- each is put under itself
  obtain ⟨keys, asKeys, distinct, each⟩ :=
    Mapping.ofKeys_texts (found.filter (Pattern.matchesName input.pattern))
  rw [Step.run_asKeys, asKeys] at keyed
  cases keyed
  -- and each file is read
  rw [Step.run_onValues, Step.run_stage] at read
  obtain ⟨entries, mid, read, last⟩ := on_bind_eq_ok.mp read
  cases last
  obtain ⟨same₂, rows, rfl, came⟩ := Mapping.mapValues_of_reads (Walk.filesOnly_reader input)
    (Walk.reads_reader input) read
  rw [same₁] at same₂ came
  obtain ⟨texts, sameKeys, rfl, opened⟩ := exists_texts isText (fun key mem => (each key mem).2) came
  refine ⟨same₂, found, texts, globbed, sameKeys ▸ distinct, fun name => ?_, opened, rfl⟩
  rw [sameKeys, ← List.mem_filter]
  constructor
  · intro mem
    obtain ⟨key, isKey, rfl⟩ := List.mem_map.mp mem
    exact (each key isKey).1
  · exact Mapping.mem_ofKeys asKeys name

/-- A file that was copied: its text was there before the run, and what is read of it was written to the
place that its output name leads to behind the run. -/
structure CopiedTo (scope : Stage.Scope) (input : Input) (output : String) (w w' : World)
    (row : String × String) (copy : Location × String) : Prop where
  read : w.files.readFile scope.host.current (scope.target row.1) = .ok (Utf8.encode row.2)
  leads : w'.files.follow scope.host.current (scope.target (nameFor input output row.1)) = .ok copy.1
  text : copy.2 = asRead row.2

/-- The steps of a pipeline for an input that is read as text. -/
theorem parts_of_text {leaf : Leaf} {p : Pipeline} (built : build .builtIn input leaf = .ok p)
    (isText : input.kind = .fileText) (toFile : leaf.output ≠ consoleOutput) :
    ∃ stages, p.steps = [.fileNames input.pattern, .asKeys, .onValues (.stage (Walk.reader input))] ++
        (stages ++ writers input leaf.output) ∧
      List.Forall₂ (fun ref step => resolve .builtIn input ref = .ok step) leaf.stages stages := by
  obtain ⟨source, stages, sink, okSource, okStages, okSink, rfl⟩ := Walk.build_eq_ok.mp built
  rw [Walk.inputSteps_eq input (by rw [isText]; rfl)] at okSource
  rw [sinkSteps, if_neg toFile, writeSteps_eq] at okSink
  cases okSource
  cases okSink
  exact ⟨stages, List.append_assoc _ _ _, mapM_eq_ok.mp okStages⟩

/-- A pipeline that reads text, applies no stage but `nullFilter` and writes files copies the files that
its pattern selects. Each text is written as it was read, to the place that its output name leads to,
where the last one written stays. Where the places differ, every copy is there, and it has the bytes of
its file exactly if there is no carriage return in them. -/
theorem copies_texts {e : Experiment} {pipelines : List Pipeline}
    (built : buildAll .builtIn e = .ok pipelines) {p : Pipeline} (mem : p ∈ pipelines)
    (isText : p.input.kind = .fileText) (handOn : ∀ ref ∈ p.leaf.stages, HandsOn ref)
    (toFile : p.leaf.output ≠ consoleOutput) {outcome : Outcome}
    (ran : (p.run scope).run w = (outcome, w')) (succeeded : outcome.isSuccess = true) :
    ∃ (found : List String) (rows : List (String × String)) (copies : List (Location × String)),
      w.files.glob scope.host.current scope.settings.workDir p.input.pattern = .ok found ∧
      (rows.map (·.1)).Nodup ∧
      (∀ name, name ∈ rows.map (·.1) ↔
        name ∈ found ∧ Pattern.matchesName p.input.pattern name = true) ∧
      List.Forall₂ (CopiedTo scope p.input p.leaf.output w w') rows copies ∧
      (∀ place text, copies.reverse.lookup place = some text →
        w'.files.get? place = some (.file (Utf8.encode text))) ∧
      ((copies.map (·.1)).Nodup → ∀ row ∈ rows,
        w'.files.readFile scope.host.current (scope.target (nameFor p.input p.leaf.output row.1)) =
          .ok (Utf8.encode (asRead row.2)) ∧
        (Utf8.encode (asRead row.2) = Utf8.encode row.2 ↔ '\r' ∉ row.2.toList)) := by
  obtain ⟨input, -, leaf, isBuilt⟩ := exists_build built mem
  obtain ⟨rfl, rfl, -⟩ := parts_of_build isBuilt
  obtain ⟨stages, steps, resolved⟩ := parts_of_text isBuilt isText toFile
  obtain ⟨r, behind, ran, files⟩ := run_success ran succeeded
  rw [steps] at ran
  -- the steps read, then hand on, then write
  obtain ⟨v, w₁, read, ran⟩ := Step.runAll_append_eq_ok.mp ran
  obtain ⟨v', w₂, staged, wrote⟩ := Step.runAll_append_eq_ok.mp ran
  obtain ⟨-, found, rows, globbed, distinct, selected, opened, rfl⟩ := runAll_textInput isText read
  obtain rfl := runAll_handsOn resolved handOn staged
  obtain ⟨-, copies, each, last, -⟩ := (Writing.sink (writeSteps_eq _ _)).exists_files wrote
  rw [← files] at each last
  -- what was read is what was written, as nothing in between has changed it
  have copied : List.Forall₂ (CopiedTo scope p.input p.leaf.output w w') rows copies := by
    refine ((List.forall₂_and_left _ _).mpr ⟨opened, List.forall₂_map_left_iff.mp each⟩).imp ?_
    rintro row copy ⟨read, leads, written⟩
    exact ⟨read, leads, (Except.ok.inj (Prod.mk.inj (written w)).1).symm⟩
  refine ⟨found, rows, copies, globbed, distinct, selected, copied, last, fun apart row mem => ⟨?_, ?_⟩⟩
  · obtain ⟨copy, isCopy, there⟩ := exists_of_forall₂ copied mem
    have once : (copies.reverse.map (·.1)).Nodup := by
      rw [List.map_reverse, List.nodup_reverse]
      exact apart
    have found := (lookup_eq_some_iff once).mpr (List.mem_reverse.mpr isCopy)
    rw [← there.text]
    exact Stage.readFile_eq_ok.mpr ⟨_, there.leads, last _ _ found⟩
  · -- the bytes are the same where reading has not touched the line ends
    rw [← Text.unifyLineEnds_eq_self_iff]
    constructor
    · intro same
      have kept := congrArg String.toList (Utf8.encode_injective same)
      rwa [asRead, String.toList_ofList] at kept
    · intro kept
      rw [asRead, kept, String.ofList_toList]

/-- A file that is copied through a filter and by way of another copy. -/
def filtered : String := "inputs: ['!a']\ntree:\n  '!a': nullFilter -> m\n  m: -> b"

/-- A directory with a file of two lines. -/
def twoLines : FileSystem := ⟨[(["a"], .file (Utf8.encode "x\r\ny"))]⟩

theorem filtered_copies :
    ∃ e p outcome w', Experiment.read filtered none = .ok e ∧ buildAll .builtIn e = .ok [p] ∧
      (p.run Walk.bareScope).run (.start twoLines) = (outcome, w') ∧ outcome.isSuccess = true ∧
      ∃ copy, CopiedTo Walk.bareScope p.input p.leaf.output (.start twoLines) w' ("a", "x\r\ny") copy ∧
        copy.2 = "x\ny" := by
  obtain ⟨e, read, inputs, tree, -⟩ := Walk.exists_read filtered [⟨"!a", .fileText, "a"⟩]
    [("!a", [⟨["nullFilter"], "m", .materialize⟩]), ("m", [⟨[], "b", .sink⟩])] (by decide +kernel)
  have unfolds : Walk.UnfoldsTo e ⟨"!a", .fileText, "a"⟩
      (.node ⟨["nullFilter"], "m", .materialize⟩ (.sink ⟨[], "b", .sink⟩ .done) .done) := by
    rw [Walk.UnfoldsTo, tree]
    exact ⟨_, rfl, .node rfl (.sink rfl .done) .done⟩
  obtain ⟨p, isBuilt, isText, handOn, toFile, globbed, isName, succeeded⟩ : ∃ p,
      build .builtIn ⟨"!a", .fileText, "a"⟩ ⟨[.named "nullFilter", .materialize "m"], "b"⟩ = .ok p ∧
      p.input.kind = .fileText ∧ (∀ ref ∈ p.leaf.stages, HandsOn ref) ∧
      p.leaf.output ≠ consoleOutput ∧
      twoLines.glob Walk.bareScope.host.current Walk.bareScope.settings.workDir p.input.pattern =
        .ok ["a"] ∧
      Pattern.matchesName p.input.pattern "a" = true ∧
      ((p.run Walk.bareScope).run (.start twoLines)).1.isSuccess = true := by
    refine ⟨_, rfl, rfl, fun ref mem => ?_, by decide, eq_ok_of_toOption (by decide +kernel),
      by decide +kernel, by decide +kernel⟩
    rcases List.mem_pair.mp mem with rfl | rfl
    · exact .inr rfl
    · exact .inl rfl
  have built : buildAll .builtIn e = .ok [p] := by
    refine Walk.buildAll_of_unfolds inputs unfolds ?_
    rw [show Unfolding.leaves [] _ = [⟨[.named "nullFilter", .materialize "m"], "b"⟩] from rfl,
      List.mapM_cons, isBuilt]
    rfl
  rcases ran : (p.run Walk.bareScope).run (.start twoLines) with ⟨outcome, w'⟩
  rw [ran] at succeeded
  -- the one file is found and selected, so one of the copies is its own
  obtain ⟨found, rows, copies, globbed', -, selected, copied, -⟩ :=
    copies_texts built List.mem_cons_self isText handOn toFile ran succeeded
  obtain rfl : ["a"] = found := Except.ok.inj (globbed.symm.trans globbed')
  obtain ⟨⟨_, text⟩, isRow, rfl⟩ :=
    List.mem_map.mp ((selected "a").mpr ⟨List.mem_singleton_self _, isName⟩)
  obtain ⟨copy, -, there⟩ := exists_of_forall₂ copied isRow
  have opened : twoLines.readFile Walk.bareScope.host.current (Walk.bareScope.target "a") =
      .ok (Utf8.encode "x\r\ny") := eq_ok_of_toOption (by decide +kernel)
  have same : text = "x\r\ny" :=
    Utf8.encode_injective (Except.ok.inj (there.read.symm.trans opened))
  subst same
  exact ⟨e, p, outcome, w', read, built, ran, succeeded, copy, there, there.text⟩

end Pipeline

end Branchwork
