import Branchwork.Proofs.Pattern
import Branchwork.Proofs.Pipeline.BuildFault
import Branchwork.Proofs.Pipeline.Executor
import Branchwork.Proofs.Stage.Again
import Branchwork.Proofs.Stage.Splitter
import Branchwork.Proofs.Step.Hands
import Branchwork.Proofs.Walk.Run

/-!
# The keys that a pipeline carries

From its second step on a pipeline carries a mapping. Its keys are different texts, and each of them is
the name of an input file or the address of a page, with one piece `.sub` behind it for every stage on
the way whose mappings were flattened.

So whatever stages an edge lists, each combinator is given the shape that it is made for, `toFile` is
given pairs where a mapping is written, and every key is matched by the pattern of its input when it is
renamed.

Main results:

* `meets_resolve`, `meets_input` — one rule for each part of a pipeline.
* `carries_extended_names` — what holds of every run of a pipeline.
-/

namespace Branchwork.Pipeline

open Action Experiment
open Step hiding name

variable {scope : Stage.Scope} {input : Input} {names : List String}

/-! ## Keys -/

/-- A key is a name with a number of pieces behind it. -/
inductive Extends (names : List String) : Nat → String → Prop
  | start {name} : name ∈ names → Extends names 0 name
  | piece {n key sub} : Extends names n key → Extends names (n + 1) (key ++ "." ++ sub)

/-- A value is a mapping whose keys are different texts, names with a number of pieces behind them. -/
def Keyed (names : List String) (n : Nat) (v : Value) : Prop :=
  v.IsTable (Extends names n) fun _ => True

/-- What a name of an input is: the name of a file that its pattern matches, or the address itself. -/
def IsNameOf (input : Input) (name : String) : Prop :=
  if input.kind.isCapture then name = input.pattern
  else Pattern.matchesName input.pattern name = true

theorem Extends.exists_append {n : Nat} {key : String} (extends_ : Extends names n key) :
    ∃ name ∈ names, ∃ more : String, key = name ++ more := by
  induction extends_ with
  | start mem => exact ⟨_, mem, "", by simp⟩
  | @piece n key sub _ ih =>
    obtain ⟨name, mem, more, rfl⟩ := ih
    exact ⟨name, mem, more ++ "." ++ sub, by simp [String.append_assoc]⟩

/-- The pattern of an input matches the beginning of whatever extends one of its names. -/
theorem Extends.leads {n : Nat} {key : String} (each : ∀ name ∈ names, IsNameOf input name)
    (extends_ : Extends names n key) : Leads input.pattern key := by
  obtain ⟨name, mem, more, rfl⟩ := extends_.exists_append
  have isName := each name mem
  unfold IsNameOf at isName
  unfold Leads
  rw [String.toList_append]
  split at isName
  · -- an address is its own pattern
    rw [isName]
    exact Pattern.leading?_self_append _ _
  · exact Pattern.leading?_append_of_matchesName isName _

/-! ## Stages -/

/-- A stage whose mappings are flattened. -/
def splits : StageRef → Bool
  | .named name => flattened.contains name
  | .materialize _ => false

theorem isTexts_of_runSplitter {v r : Value} {w w' : World}
    (ran : (Stage.runSplitter v).on w = (.ok r, w')) : IsTexts r := by
  rw [Stage.runSplitter_eq] at ran
  split at ran
  · cases ran
    exact ⟨_, rfl⟩
  · cases ran

theorem isTexts_of_renderTemplates {settings : Settings} {v r : Value}
    {templates : List (String × String)} {w w' : World}
    (ran : (Stage.renderTemplates settings v templates).on w = (.ok r, w')) : IsTexts r := by
  unfold Stage.renderTemplates at ran
  dsimp only at ran
  split at ran
  · obtain ⟨entries, mid, rendered, last⟩ := on_bind_eq_ok.mp ran
    cases last
    rw [on_ofExcept] at rendered
    cases result : Stage.renderAll settings v templates with
    | error problem =>
      rw [result] at rendered
      cases rendered
    | ok entries' =>
      rw [result] at rendered
      cases rendered
      obtain ⟨rows, rfl⟩ := Stage.renderAll_texts result
      refine ⟨rows.map fun row => (row.1, .text row.2), ?_⟩
      rw [Mapping.ofTexts, List.map_map]
      rfl
  · cases ran

theorem isTexts_of_runTemplate {v r : Value} {w w' : World}
    (ran : (Stage.runTemplate scope v).on w = (.ok r, w')) : IsTexts r := by
  obtain ⟨found?, mid, -, ran⟩ := on_bind_eq_ok.mp ran
  cases found? with
  | none => cases ran
  | some found =>
    obtain ⟨place, entry⟩ := found
    cases entry with
    | file bytes => cases ran
    | directory =>
      obtain ⟨files, mid', -, ran⟩ := on_bind_eq_ok.mp ran
      obtain ⟨templates, mid'', -, ran⟩ := on_bind_eq_ok.mp ran
      exact isTexts_of_renderTemplates ran

theorem comesTo_texts {s : Stage} {v r : Value} {w w' : World}
    (flat : flattened.contains s.name = true) (ran : (s.run scope v).on w = (.ok r, w')) :
    IsTexts r := by
  cases s with
  | tracePidSplitter => exact isTexts_of_runSplitter ran
  | template => exact isTexts_of_runTemplate ran
  | _ => exact absurd flat (by decide)

/-! ## The parts of a pipeline -/

/-- The keys that a pipeline carries can be renamed. -/
theorem meets_renames (each : ∀ name ∈ names, IsNameOf input name) (target : String) (n : Nat) :
    Meets scope [.rename input.pattern target] (Keyed names n)
      (Value.IsTable (fun _ => True) fun _ => True) :=
  (meets_rename input.pattern target).mono
    (fun _ table => table.mono (fun _ => Extends.leads each) fun _ => id) fun _ => id

/-- Writing takes a mapping whose keys can be renamed. -/
theorem meets_write (each : ∀ name ∈ names, IsNameOf input name) (target : String) (n : Nat) :
    Meets scope [.rename input.pattern target, .pairs, .onEach (.stage .toFile)] (Keyed names n)
      fun _ => True :=
  (meets_renames each target n).cons (meets_pairs.cons (meets_onEach .toFile))

/-- A mapping that is written on the way is passed on as it is. -/
theorem meets_materialize (each : ∀ name ∈ names, IsNameOf input name) (target : String) (n : Nat) :
    Meets scope [.chain (materializeStart ++ target) [.duplicate,
        .onRight (.rename input.pattern target), .onRight .pairs,
        .onRight (.onEach (.stage .toFile)), .left]] (Keyed names n) (Keyed names n) := by
  refine .chain (meets_duplicate.cons ?_)
  -- the copy on the right is written, and dropped behind it
  refine (meets_renames each target n).onRight.cons (meets_pairs.onRight.cons ?_)
  exact (meets_onEach .toFile).onRight.cons meets_left

/-- A stage is found under its own name. -/
theorem exists_stage {name : String} {step : Step} (found : stageStep .builtIn name = .ok step) :
    ∃ s : Stage, step = .stage s ∧ s.name = name := by
  have named : ∀ entry ∈ Registry.builtIn.entries, entry.2.name = entry.1 := by decide
  unfold stageStep Registry.lookup at found
  cases result : Registry.builtIn.entries.lookup name with
  | none =>
    rw [result] at found
    cases found
  | some s =>
    rw [result] at found
    cases found
    obtain ⟨before, after, split, -⟩ := List.lookup_eq_some_iff.mp result
    exact ⟨s, rfl, named (name, s) (by simp [split])⟩

/-- The target of a stage of a leaf that marks a place at which the mapping is written. -/
def markerTarget? : StageRef → Option String
  | .materialize target => some target
  | .named stageName => materializeTarget? stageName

theorem markerTarget?_name (s : Stage) : markerTarget? (.named s.name) = none := by
  cases s <;> rfl

/-- The steps of a leaf: what is marked is written on the way, and all other stages are applied to every
value. -/
theorem resolve_cases {ref : StageRef} {step : Step}
    (resolved : resolve .builtIn input ref = .ok step) :
    (∃ target, markerTarget? ref = some target ∧ step = materializer input target) ∨
      ∃ s : Stage, ref = .named s.name ∧ step = Walk.perValue s := by
  cases ref with
  | materialize target =>
    cases resolved
    exact .inl ⟨target, rfl, rfl⟩
  | named stageName =>
    cases start : materializeTarget? stageName with
    | some target =>
      rw [resolve, start] at resolved
      cases resolved
      exact .inl ⟨target, start, rfl⟩
    | none =>
      obtain ⟨s, found⟩ : ∃ s : Stage, s.name = stageName := by
        rw [resolve, start] at resolved
        obtain ⟨inner, found, -⟩ := bind_eq_ok.mp resolved
        obtain ⟨s, -, same⟩ := exists_stage found
        exact ⟨s, same⟩
      rw [← found, Walk.resolve_name] at resolved
      cases resolved
      exact .inr ⟨s, by rw [found], rfl⟩

/-- The step of a stage takes a mapping to a mapping, with one piece more behind every key if the
mappings that it comes to are flattened. -/
theorem meets_resolve (each : ∀ name ∈ names, IsNameOf input name) {stage : StageRef} {step : Step}
    (resolved : resolve .builtIn input stage = .ok step) (n : Nat) :
    Meets scope [step] (Keyed names n) (Keyed names (n + if splits stage then 1 else 0)) := by
  rcases resolve_cases resolved with ⟨target, marker, rfl⟩ | ⟨s, rfl, rfl⟩
  · -- no name of a stage that is flattened begins like a marker
    have unlike : ∀ stageName ∈ flattened, materializeTarget? stageName = none := by decide
    have plain : splits stage = false := by
      cases stage with
      | materialize _ => rfl
      | named stageName =>
        by_contra flat
        have mem : stageName ∈ flattened := by simpa [splits] using flat
        rw [markerTarget?, unlike stageName mem] at marker
        cases marker
    rw [plain]
    exact meets_materialize each target n
  · -- the name of the stage decides whether its mappings are flattened, here and in `splits`
    unfold Walk.perValue
    by_cases flat : flattened.contains s.name = true
    · rw [if_pos flat, if_pos (show splits (.named s.name) = true from flat)]
      refine .chain ((meets_onValues (comesTo_texts flat)).cons ?_)
      refine (meets_joinKeys (Extends names n)).mono (fun _ => id) fun v table => ?_
      refine table.mono ?_ fun _ => id
      rintro key ⟨outer, sub, extends_, rfl⟩
      exact .piece extends_
    · rw [if_neg flat, if_neg (show ¬ splits (.named s.name) = true from flat)]
      exact meets_onValues fun _ => trivial

/-- Stages in order: as many pieces more as there are stages whose mappings are flattened. -/
theorem meets_stages (each : ∀ name ∈ names, IsNameOf input name) {stages : List StageRef}
    {steps : List Step}
    (resolved : List.Forall₂ (fun stage step => resolve .builtIn input stage = .ok step) stages steps)
    (n : Nat) : Meets scope steps (Keyed names n) (Keyed names (n + stages.countP splits)) := by
  induction resolved generalizing n with
  | nil => exact .nil
  | @cons stage step stages steps first _ ih =>
    refine (meets_resolve each first n).cons ((ih _).mono (fun _ => id) fun v keyed => ?_)
    have count : n + (stage :: stages).countP splits =
        (n + if splits stage then 1 else 0) + stages.countP splits := by
      rw [List.countP_cons]
      omega
    rw [count]
    exact keyed

/-- The names of an input are handed to the reader as the keys of a mapping. -/
theorem meets_acquire (names : List String) (reader : Stage) :
    Meets scope [.asKeys, .onValues (.stage reader)] (· = .list (names.map .text))
      (Keyed names 0) := by
  have keys : Meets scope [.asKeys] (· = .list (names.map .text)) (Keyed names 0) :=
    (meets_asKeys names).mono (fun _ => id) fun v table => table.mono (fun _ => .start) fun _ => id
  exact keys.cons (meets_onValues fun _ => trivial)

/-- What delivers a mapping takes it. -/
theorem meets_sink (each : ∀ name ∈ names, IsNameOf input name) {output : String}
    {sink : List Step} (built : sinkSteps .builtIn input output = .ok sink) (n : Nat) :
    Meets scope sink (Keyed names n) fun _ => True := by
  unfold sinkSteps at built
  split at built
  · cases built
    refine .single (fun _ hands => ?_) fun _ _ => trivial
    cases hands
    trivial
  · cases built
    exact meets_write each output n

/-! ## The source of a pipeline -/

/-- A value is a list of names that an input may have. -/
def IsNaming (input : Input) (v : Value) : Prop :=
  ∃ names : List String, (∀ name ∈ names, IsNameOf input name) ∧ v = .list (names.map .text)

theorem isNameOf_of_findFiles {w w' : World} {found : List String} {name : String}
    (file : input.kind.isCapture = false)
    (ran : (scope.findFiles input.pattern).on w = (.ok found, w')) (mem : name ∈ found) :
    IsNameOf input name := by
  obtain ⟨files, mid, -, ran⟩ := on_bind_eq_ok.mp ran
  obtain ⟨all, mid', -, ran⟩ := on_bind_eq_ok.mp ran
  -- whether there is a warning or not, what is found is what the pattern matches
  have same : found = all.filter (Pattern.matchesName input.pattern) := by
    dsimp only at ran
    split at ran <;> cases ran <;> rfl
  rw [same] at mem
  rw [IsNameOf, if_neg (by simp [file])]
  exact (List.mem_filter.mp mem).2

/-- The source comes to the names of the input. -/
theorem meets_source : Meets scope (sourceSteps input) (fun _ => True) (IsNaming input) := by
  unfold sourceSteps
  split
  · rename_i capture
    refine (meets_const (.text input.pattern)).cons (meets_listify.mono (fun _ => id) ?_)
    rintro v ⟨_, rfl, rfl⟩
    refine ⟨[input.pattern], fun name mem => ?_, rfl⟩
    rw [IsNameOf, if_pos capture]
    exact List.mem_singleton.mp mem
  · rename_i file
    refine .primitive (fun _ _ => trivial) (fun hands => by cases hands; exact ⟨rfl, rfl⟩) ?_
    intro v w r w' _ ran
    rw [Step.run] at ran
    obtain ⟨found, mid, ran, last⟩ := on_bind_eq_ok.mp ran
    cases last
    exact ⟨found, fun name => isNameOf_of_findFiles (Bool.eq_false_iff.mpr file) ran, rfl⟩

/-! ## Pipelines -/

/-- The parts of a pipeline: the source, the keys and the reader, the stages, and the sink. -/
theorem parts_of_build {leaf : Leaf} {p : Pipeline} (built : build .builtIn input leaf = .ok p) :
    p.input = input ∧ p.leaf = leaf ∧ ∃ reader stages sink,
      p.steps = sourceSteps input ++ ([.asKeys, .onValues (.stage reader)] ++ stages ++ sink) ∧
      List.Forall₂ (fun stage step => resolve .builtIn input stage = .ok step) leaf.stages stages ∧
      sinkSteps .builtIn input leaf.output = .ok sink := by
  obtain ⟨source, stages, sink, okSource, okStages, okSink, rfl⟩ := Walk.build_eq_ok.mp built
  obtain ⟨step, found, last⟩ := bind_eq_ok.mp okSource
  cases last
  obtain ⟨reader, rfl, -⟩ := exists_stage found
  exact ⟨rfl, rfl, reader, stages, sink, by simp, mapM_eq_ok.mp okStages, okSink⟩

/-- Behind the source, the steps of a pipeline take the names to mappings, up to the sink. -/
theorem meets_take (each : ∀ name ∈ names, IsNameOf input name) {reader : Stage}
    {refs : List StageRef} {stages sink : List Step}
    (resolved : List.Forall₂ (fun stage step => resolve .builtIn input stage = .ok step) refs stages)
    {k : Nat} (some_step : 1 ≤ k) (short : k ≤ 2 + refs.length) :
    Meets scope (([Step.asKeys, .onValues (.stage reader)] ++ stages ++ sink).take k)
      (· = .list (names.map .text)) (Keyed names ((refs.take (k - 2)).countP splits)) := by
  -- the first step makes the mapping, the second one reads it, and then the stages follow
  obtain rfl | ⟨j, rfl⟩ : k = 1 ∨ ∃ j, k = j + 2 := by
    rcases Nat.lt_or_ge k 2 with less | more
    · exact .inl (by omega)
    · exact .inr ⟨k - 2, by omega⟩
  · have keys : Meets scope [.asKeys] (· = .list (names.map .text)) (Keyed names 0) :=
      (meets_asKeys names).mono (fun _ => id) fun v table => table.mono (fun _ => .start) fun _ => id
    exact keys
  · have inside : j ≤ stages.length := by
      have same := resolved.length_eq
      omega
    have split : ([Step.asKeys, .onValues (.stage reader)] ++ stages ++ sink).take (j + 2) =
        [.asKeys, .onValues (.stage reader)] ++ stages.take j := by
      rw [List.append_assoc, List.take_append, List.take_append]
      simp [Nat.sub_eq_zero_of_le inside]
    have later : Meets scope (stages.take j) (Keyed names 0) _ :=
      meets_stages each (List.forall₂_take j resolved) 0
    rw [Nat.zero_add] at later
    rw [split]
    exact (meets_acquire names reader).append later

/-- A pipeline that was built is that of a leaf below an input. -/
theorem exists_leaf {registry : Registry Stage} {e : Experiment} {pipelines : List Pipeline}
    (built : buildAll registry e = .ok pipelines) {p : Pipeline} (mem : p ∈ pipelines) :
    ∃ input ∈ e.inputs, ∃ leaves, e.tree.leaves input.identifier = .ok leaves ∧
      ∃ leaf ∈ leaves, build registry input leaf = .ok p := by
  rw [buildAll] at built
  -- the inputs are gone through one by one, while the experiment stays
  generalize e.inputs = inputs at built
  induction inputs generalizing pipelines with
  | nil =>
    cases built
    cases mem
  | cons input rest ih =>
    obtain ⟨first, okFirst, built⟩ := bind_eq_ok.mp built
    obtain ⟨more, okMore, last⟩ := bind_eq_ok.mp built
    cases last
    rcases List.mem_append.mp mem with here | later
    · obtain ⟨leaves, flat, okLeaves⟩ := bind_eq_ok.mp okFirst
      obtain ⟨leaf, isLeaf, isBuilt⟩ := exists_of_mapM_eq_ok okLeaves here
      have flat : e.tree.leaves input.identifier = .ok leaves := by
        cases found : e.tree.leaves input.identifier with
        | error cycle =>
          rw [found] at flat
          cases flat
        | ok leaves' =>
          rw [found] at flat
          cases flat
          rfl
      exact ⟨input, List.mem_cons_self, leaves, flat, leaf, isLeaf, isBuilt⟩
    · obtain ⟨other, among, found⟩ := ih later okMore
      exact ⟨other, List.mem_cons_of_mem _ among, found⟩

theorem exists_build {registry : Registry Stage} {e : Experiment} {pipelines : List Pipeline}
    (built : buildAll registry e = .ok pipelines) {p : Pipeline} (mem : p ∈ pipelines) :
    ∃ input ∈ e.inputs, ∃ leaf, build registry input leaf = .ok p := by
  obtain ⟨input, among, leaves, -, leaf, -, isBuilt⟩ := exists_leaf built mem
  exact ⟨input, among, leaf, isBuilt⟩

/-! ## Traces -/

/-- The trace of steps tells what each of them came to, and a failure is theirs. -/
theorem runSteps_trace (scope : Stage.Scope) (label : String) (index : Nat) (done : List Trace)
    (steps : List Step) (v : Value) (w : World) :
    ∃ more, (StateT.run (runSteps scope label index done steps v) w).1.trace =
        done.reverse ++ more ∧
      (∀ i t, more[i]? = some t → i < steps.length ∧
        t.result = ((runAll scope (steps.take (i + 1)) v).on w).1) ∧
      ∀ f, (StateT.run (runSteps scope label index done steps v) w).1.failure = some f →
        ∃ w', (runAll scope steps v).on w = (.error f.cause, w') := by
  -- along the steps; what is done already stands in front of the trace
  induction steps generalizing index done v w with
  | nil =>
    refine ⟨[], (List.append_nil _).symm, ?_, ?_⟩
    · intro i t found
      cases found
    · intro f failed
      cases failed
  | cons step rest ih =>
    have first (more : List Step) : (runAll scope (step :: more) v).on w = _ :=
      runAll_cons_on step more v w
    rw [runSteps_cons]
    rcases ran : (step.run scope v).on w with ⟨cause | y, mid⟩
    · -- the failure is the last entry of the trace, and ends the steps as well
      rw [ran] at first
      refine ⟨[⟨step.name, .error cause⟩], List.reverse_cons, ?_, ?_⟩
      · intro i t found
        obtain ⟨rfl, rfl⟩ : i = 0 ∧ t = ⟨step.name, .error cause⟩ := by
          cases i with
          | zero => exact ⟨rfl, (Option.some.inj found).symm⟩
          | succ i => cases found
        refine ⟨Nat.zero_lt_succ _, ?_⟩
        rw [List.take_succ_cons, first]
      · intro f failed
        cases failed
        exact ⟨mid, first rest⟩
    · rw [ran] at first
      obtain ⟨more, trace, each, fails⟩ := ih (index + 1) (⟨step.name, .ok y⟩ :: done) y mid
      refine ⟨⟨step.name, .ok y⟩ :: more, ?_, ?_, ?_⟩
      · rw [trace, List.reverse_cons, List.append_assoc]
        rfl
      · intro i t found
        rw [List.take_succ_cons, first]
        cases i with
        | zero =>
          cases found
          refine ⟨Nat.zero_lt_succ _, ?_⟩
          dsimp only
          rw [List.take_zero, runAll_nil_on]
        | succ i =>
          obtain ⟨short, result⟩ := each i t found
          exact ⟨Nat.succ_lt_succ short, result⟩
      · intro f failed
        rw [first]
        exact fails f failed

theorem trace_of_run {p : Pipeline} {w : World} {i : Nat} {t : Trace}
    (found : (StateT.run (p.run scope) w).1.trace[i]? = some t) :
    i < p.steps.length ∧ t.result = ((runAll scope (p.steps.take (i + 1)) .null).on w).1 := by
  obtain ⟨more, trace, each, -⟩ := runSteps_trace scope p.label 0 [] p.steps .null w
  rw [outcome_run, trace] at found
  exact each i t found

theorem failure_of_run {p : Pipeline} {w : World} {f : Failure}
    (failed : (StateT.run (p.run scope) w).1.failure = some f) :
    ∃ w', (runAll scope p.steps .null).on w = (.error f.cause, w') := by
  obtain ⟨-, -, -, fails⟩ := runSteps_trace scope p.label 0 [] p.steps .null w
  rw [outcome_run] at failed
  exact fails f failed

/-! ## Runs -/

/-- A pipeline as one step. -/
def whole (p : Pipeline) : Step := .chain p.label p.steps

/-- The names that the source of a pipeline comes to in a world. -/
theorem exists_naming (scope : Stage.Scope) (input : Input) (w : World) :
    ∃ names : List String, (∀ name ∈ names, IsNameOf input name) ∧ ∀ v w',
      (runAll scope (sourceSteps input) .null).on w = (.ok v, w') → v = .list (names.map .text) := by
  rcases ran : (runAll scope (sourceSteps input) .null).on w with ⟨cause | y, mid⟩
  · -- a source that fails comes to no names at all
    exact ⟨[], by simp, fun v w' h => by cases h⟩
  · obtain ⟨names, each, rfl⟩ := meets_source.gives trivial ran
    refine ⟨names, each, fun v w' h => ?_⟩
    cases h
    rfl

/-- Whatever stages its edges list, in every run a pipeline carries a mapping from its keys up to its
sink, with different texts for keys: a name that the source came to, with one piece behind it for each
stage so far whose mappings were flattened. So every step is given a value of the shape that it is
made for, also inside the steps that are put together from others; and what a pipeline fails for is a
stage, the search for files, or two keys that get one name. -/
theorem carries_extended_names {e : Experiment} {pipelines : List Pipeline}
    (built : buildAll .builtIn e = .ok pipelines) {p : Pipeline} (mem : p ∈ pipelines)
    (scope : Stage.Scope) (w : World) :
    ∃ names : List String, (∀ name ∈ names, IsNameOf p.input name) ∧
      (∀ t v, (StateT.run (p.run scope) w).1.trace[(sourceSteps p.input).length - 1]? = some t →
        t.result = .ok v → v = .list (names.map .text)) ∧
      (∀ k t v, k < 2 + p.leaf.stages.length →
        (StateT.run (p.run scope) w).1.trace[(sourceSteps p.input).length + k]? = some t →
        t.result = .ok v → Keyed names ((p.leaf.stages.take (k - 1)).countP splits) v) ∧
      (∀ {inner x u}, Hands scope p.whole .null w inner x u → inner.Fits x) ∧
      ∀ f, (StateT.run (p.run scope) w).1.failure = some f →
        Blamed scope p.whole .null w f.cause := by
  obtain ⟨input, -, leaf, isBuilt⟩ := exists_build built mem
  obtain ⟨rfl, rfl, reader, stages, sink, steps, resolved, okSink⟩ := parts_of_build isBuilt
  obtain ⟨names, each, naming⟩ := exists_naming scope p.input w
  have fits : ∀ {inner x u}, Hands scope p.whole .null w inner x u → inner.Fits x := by
    -- which names the source comes to is not known before it runs, so the rest has to take them all
    have rest (names : {names : List String // ∀ name ∈ names, IsNameOf p.input name}) :
        Meets scope ([Step.asKeys, .onValues (.stage reader)] ++ stages ++ sink)
          (· = .list (names.1.map .text)) fun _ => True :=
      ((meets_acquire names.1 reader).append (meets_stages names.2 resolved 0)).append
        (meets_sink names.2 okSink _)
    have all : Meets scope p.steps (fun _ => True) fun _ => True := by
      rw [steps]
      refine meets_source.append ((Meets.exists rest).mono ?_ fun _ => id)
      rintro v ⟨names, each, rfl⟩
      exact ⟨⟨names, each⟩, rfl⟩
    intro inner x u hands
    cases hands with
    | self => trivial
    | link split ran hands => exact all.fits trivial split ran hands
  refine ⟨names, each, ?_, ?_, fits, ?_⟩
  · intro t v found ok
    obtain ⟨-, result⟩ := trace_of_run found
    have length : 0 < (sourceSteps p.input).length := by
      unfold sourceSteps
      split <;> simp
    rw [steps, Nat.sub_add_cancel length, List.take_left, ok] at result
    exact naming v _ (Prod.ext result.symm rfl)
  · intro k t v short found ok
    obtain ⟨-, result⟩ := trace_of_run found
    -- behind the source the value is what the rules say, from the names that it came to
    rw [steps, Nat.add_assoc, List.take_length_add_append, ok] at result
    obtain ⟨y, mid, ran, later⟩ := runAll_append_eq_ok.mp (Prod.ext result.symm rfl)
    have start := naming y mid ran
    have some_step : 1 ≤ k + 1 := Nat.succ_le_succ (Nat.zero_le k)
    exact (meets_take each resolved some_step short).gives start later
  · intro f failed
    obtain ⟨w', ran⟩ := failure_of_run failed
    refine exists_blamed p.whole .null w w' f.cause fits ?_
    rw [whole, Step.run]
    exact ran

/-- A trace that is split by its processes. -/
def splitTrace : String := "inputs: [t.json]\ntree:\n  t.json: tracePIDSplitter -> out-*"

/-- A directory with a trace of one event. -/
def oneEvent : FileSystem := ⟨[(["t.json"], .file (Utf8.encode "[\x7b\x7d]"))]⟩

theorem splitTrace_carries :
    ∃ e p, Experiment.read splitTrace none = .ok e ∧ buildAll .builtIn e = .ok [p] ∧
      ∃ names t v, (StateT.run (p.run Walk.bareScope) (.start oneEvent)).1.trace[3]? = some t ∧
        t.result = .ok v ∧ Keyed names 1 v := by
  obtain ⟨e, read, inputs, tree, -⟩ := Walk.exists_read splitTrace [⟨"t.json", .file, "t.json"⟩]
    [("t.json", [⟨["tracePIDSplitter"], "out-*", .sink⟩])] (by decide +kernel)
  have unfolds : Walk.UnfoldsTo e ⟨"t.json", .file, "t.json"⟩
      (.sink ⟨["tracePIDSplitter"], "out-*", .sink⟩ .done) := by
    rw [Walk.UnfoldsTo, tree]
    exact ⟨_, rfl, .sink rfl .done⟩
  obtain ⟨p, isBuilt, leaf, source, ran⟩ : ∃ p,
      build .builtIn ⟨"t.json", .file, "t.json"⟩ ⟨[.named "tracePIDSplitter"], "out-*"⟩ = .ok p ∧
      p.leaf = ⟨[.named "tracePIDSplitter"], "out-*"⟩ ∧ (sourceSteps p.input).length = 1 ∧
      ((StateT.run (p.run Walk.bareScope) (.start oneEvent)).1.trace[3]?.bind
        (·.result.toOption)).isSome :=
    ⟨_, rfl, rfl, rfl, by decide +kernel⟩
  have built : buildAll .builtIn e = .ok [p] := by
    refine Walk.buildAll_of_unfolds inputs unfolds ?_
    rw [show Unfolding.leaves [] _ = [⟨[.named "tracePIDSplitter"], "out-*"⟩] from rfl,
      List.mapM_cons, isBuilt]
    rfl
  obtain ⟨v, found⟩ := Option.isSome_iff_exists.mp ran
  obtain ⟨t, here, value⟩ := Option.bind_eq_some_iff.mp found
  -- the fourth entry of the trace is a value
  have ok : t.result = .ok v := by
    cases result : t.result with
    | error cause =>
      rw [result] at value
      cases value
    | ok y =>
      rw [result] at value
      exact congrArg Except.ok (Option.some.inj value)
  obtain ⟨names, -, -, keyed, -⟩ :=
    carries_extended_names built List.mem_cons_self Walk.bareScope (.start oneEvent)
  have at_stage := keyed 2 t v
  rw [leaf, source] at at_stage
  exact ⟨e, p, read, built, names, t, v, here, ok, at_stage (by decide) here ok⟩

end Branchwork.Pipeline
