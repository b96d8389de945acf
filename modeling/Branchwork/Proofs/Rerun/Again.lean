import Branchwork.Proofs.Rerun.Leaf
import Branchwork.Proofs.Rerun.Settled

/-!
# A second run behind the first

A second run starts from the files that the first one has left. When both have come through the same
pipelines, the second one finds what the first one finds there, but for files that the first one is yet
to write or write over: these are there already (`Retraced`). So whatever it reads it reads as the first
one, and whatever it writes it writes again.

Main results:

* `retraces_follow` — one pipeline.
* `Retraced.each` — pipelines one behind the other.
-/

namespace Branchwork

open Action

/-- Two causes alike, or two searches that have come upon a name that is too long. -/
def Fault.Similar (cause cause' : Fault) : Prop :=
  cause.Alike cause' ∨ ∃ a b : FileSystem.Fault, cause = .glob (.files a) ∧
    cause' = .glob (.files b) ∧ a.reason = .nameTooLong ∧ b.reason = .nameTooLong

theorem Fault.Similar.refl (cause : Fault) : cause.Similar cause := .inl (.refl cause)

/-- The same result, or failures for similar causes. -/
inductive Agrees {α : Type} : Except Fault α → Except Fault α → Prop
  | refl (result) : Agrees result result
  | error {cause cause'} : cause.Similar cause' → Agrees (.error cause) (.error cause')

theorem similar_of_alike {cause? cause?' : Option Fault}
    (alike : Option.Rel Fault.Alike cause? cause?') : Option.Rel Fault.Similar cause? cause?' := by
  cases alike with
  | none => exact .none
  | some alike => exact .some (.inl alike)

theorem similar_refl (cause? : Option Fault) : Option.Rel Fault.Similar cause? cause? :=
  similar_of_alike (Walk.alike_refl cause?)

theorem agrees_of_similar {α : Type} {cause? cause?' : Option Fault}
    (similar : Option.Rel Fault.Similar cause? cause?') (x : α) :
    Agrees (cause?.elim (.ok x) .error) (cause?'.elim (.ok x) .error) := by
  cases similar with
  | none => exact .refl _
  | some similar => exact .error similar

/-- Two outcomes of one pipeline: successes, or failures for similar causes. -/
def Outcome.Similar (outcome outcome' : Outcome) : Prop :=
  outcome'.label = outcome.label ∧
    Option.Rel Fault.Similar (outcome.failure.map (·.cause)) (outcome'.failure.map (·.cause))

namespace Rerun

open Pipeline Stage FileSystem Walk
open Experiment (Input StageRef)

variable {scope : Stage.Scope} {written done : List Location} {start final fs later : FileSystem}

/-- Two runs have come through the same pipelines, the first one to `fs`, and the second one, which
started where the first one ended, to `later`. The files at the places that were opened on the way are
the same, and all others are still as the first run has left them in the end. -/
structure Retraced (scope : Stage.Scope) (written : List Location) (start final : FileSystem)
    (done : List Location) (fs later : FileSystem) : Prop where
  between : Between scope written start final fs
  ready : Ready scope later
  rewritten : Rewritten done fs final later
  sub : done ⊆ written
  file : ∀ place ∈ done, ∃ bytes, fs.get? place = some (.file bytes)

/-- A second run can start where the first one has ended. -/
theorem Retraced.refl (begun : Ready scope start) (left : Left scope start final written) :
    Retraced scope written start final [] start final :=
  ⟨⟨begun, .refl _ _, left.grown⟩, left.ready, .refl _ _, List.nil_subset _, fun _ mem => by cases mem⟩

/-- What the second run comes by lies between the start and the end of the first one as well. -/
theorem Retraced.between_later (retraced : Retraced scope written start final done fs later) :
    Between scope written start final later := by
  have whole := retraced.between.grown.trans retraced.between.last
  -- from the first run's end the second one has only written files again
  exact ⟨retraced.ready, whole.trans (retraced.rewritten.grown.mono retraced.sub),
    retraced.rewritten.back.mono retraced.sub⟩

/-- What the first run does on its way the second one does again when it comes to the same point: it
opens the same files, and is stopped where the first one was stopped, for a similar cause. -/
def Retraces (scope : Stage.Scope) (written : List Location) (start final : FileSystem)
    (act : FileSystem → Written) : Prop :=
  ∀ done fs later, Retraced scope written start final done fs later →
    Grown written (act fs).files final → (act fs).places ⊆ written →
    ∃ fault? later', act later = ⟨fault?, later', (act fs).places⟩ ∧
      Option.Rel Fault.Similar (act fs).fault? fault? ∧
      Retraced scope written start final (done ++ (act fs).places) (act fs).files later'

/-- What opens no file is done again if it is stopped for similar causes throughout. -/
theorem retraces_of_quiet {act : FileSystem → Written}
    (quiet : ∀ g, Between scope written start final g → ∃ fault?, act g = ⟨fault?, g, []⟩)
    (similar : ∀ g h, Between scope written start final g → Between scope written start final h →
      Option.Rel Fault.Similar (act g).fault? (act h).fault?) :
    Retraces scope written start final act := by
  intro done fs later retraced _ _
  have alike := similar fs later retraced.between retraced.between_later
  obtain ⟨fault?, here⟩ := quiet fs retraced.between
  obtain ⟨fault?', there⟩ := quiet later retraced.between_later
  rw [here, there] at alike ⊢
  refine ⟨fault?', later, rfl, alike, ?_⟩
  rwa [List.append_nil]

/-! ## Writing -/

theorem retraces_write (input : Input) (target : String) (entries : Mapping) :
    Retraces scope written start final (write scope input target entries) := by
  intro done fs later retraced last sub
  have left : Left scope fs (write scope input target entries fs).files
    (write scope input target entries fs).places := write_left target entries retraced.between.ready
  have left' : Left scope later (write scope input target entries later).files
    (write scope input target entries later).places := write_left target entries retraced.ready
  obtain ⟨fault?, later', again, alike, rewritten⟩ := write_rewritten target entries
    retraced.between.ready (last.toKept.trans retraced.rewritten.shape.forth)
  rw [again] at left'
  -- one field of `Retraced` after the other
  refine ⟨fault?, later', again, similar_of_alike alike, ?_, left'.ready, ?_, ?_, ?_⟩
  · exact ⟨left.ready, retraced.between.grown.trans (left.grown.mono sub), last⟩
  · exact retraced.rewritten.append rewritten retraced.file left.grown
  · exact List.append_subset.mpr ⟨retraced.sub, sub⟩
  · intro place mem
    rcases List.mem_append.mp mem with old | new
    · obtain ⟨bytes, there⟩ := retraced.file place old
      exact left.grown.file there
    · exact left.file place new

/-! ## Leaves -/

section

variable (begun : Ready scope start) (stay : TemplatesStay scope written start final)
include begun stay

theorem passStage_again {input : Input} {stage : StageRef} (passing : PassingRef stage)
    {entries : Mapping} (retraced : Retraced scope written start final done fs later)
    (last : Grown written (passStage scope input stage entries fs).files final)
    (sub : (passStage scope input stage entries fs).places ⊆ written) :
    ∃ result later', passStage scope input stage entries later =
        ⟨result, later', (passStage scope input stage entries fs).places⟩ ∧
      Agrees (passStage scope input stage entries fs).result result ∧
      Retraced scope written start final (done ++ (passStage scope input stage entries fs).places)
        (passStage scope input stage entries fs).files later' := by
  cases stage with
  | named name =>
    -- a stage that only reads comes to one result over everything in between
    obtain ⟨s, mem, rfl⟩ := passing
    obtain ⟨result, same⟩ := settled_applyStage begun stay
      (retraced.between.grown.trans retraced.between.last) mem entries
    have passes : ∀ g, Between scope written start final g →
        passStage scope input (.named s.name) entries g = ⟨result, g, []⟩ := by
      intro g between
      unfold passStage
      dsimp only
      rw [same g between]
    rw [passes fs retraced.between, passes later retraced.between_later]
    refine ⟨result, later, rfl, .refl result, ?_⟩
    rwa [List.append_nil]
  | materialize target =>
    obtain ⟨fault?, later', again, similar, retraced⟩ :=
      retraces_write input target entries done fs later retraced last sub
    refine ⟨fault?.elim (.ok entries) .error, later', ?_, agrees_of_similar similar entries, retraced⟩
    unfold passStage
    dsimp only
    rw [again]

theorem retraces_passLeaf (input : Input) (output : String) {stages : List StageRef}
    (passing : PassingLeaf stages) (entries : Mapping) :
    Retraces scope written start final (passLeaf scope input output stages entries) := by
  induction stages generalizing entries with
  | nil =>
    by_cases console : output = consoleOutput
    · -- what is shown depends on no file
      have shows : ∀ g, passLeaf scope input output [] entries g =
          ⟨faultOf ((runConsole (.map entries)).over g).1, g, []⟩ := fun g => if_pos console
      obtain ⟨result, same⟩ := filesFree_runConsole (.map entries)
      refine retraces_of_quiet (fun g _ => ⟨_, shows g⟩) fun g h _ _ => ?_
      rw [shows, shows, same, same]
      exact similar_refl _
    · have writes : passLeaf scope input output [] entries = write scope input output entries :=
        funext fun g => if_neg console
      rw [writes]
      exact retraces_write input output entries
  | cons stage rest ih =>
    intro done fs later retraced last sub
    have others : PassingLeaf rest := fun other mem => passing other (List.mem_cons_of_mem _ mem)
    have here := passing stage List.mem_cons_self
    have first := passStage_left input here entries retraced.between.ready
    rw [passLeaf] at last sub ⊢
    rw [passLeaf]
    dsimp only at last sub ⊢
    cases passed : (passStage scope input stage entries fs).result with
    | error cause =>
      -- the stage has stopped the first run, and stops the second one
      rw [passed] at last sub
      dsimp only at last sub ⊢
      obtain ⟨result, later', again, agrees, retraced⟩ :=
        passStage_again begun stay here retraced last sub
      rw [passed] at agrees
      rw [again]
      cases agrees with
      | refl => exact ⟨some cause, later', rfl, .some (.refl cause), retraced⟩
      | error similar => exact ⟨_, later', rfl, .some similar, retraced⟩
    | ok behind =>
      rw [passed] at last sub
      dsimp only at last sub ⊢
      -- the first run has gone on from here to its end
      obtain ⟨subFirst, subRest⟩ := List.append_subset.mp sub
      have onward := passLeaf_left input output others behind first.ready
      obtain ⟨result, later', again, agrees, retraced⟩ :=
        passStage_again begun stay here retraced ((onward.grown.mono subRest).trans last) subFirst
      rw [passed] at agrees
      rw [again]
      cases agrees
      -- both runs hand the same mapping to the rest of the leaf
      obtain ⟨fault?, later'', further, similar, retraced⟩ :=
        ih others behind _ _ _ retraced last subRest
      dsimp only
      rw [further]
      refine ⟨fault?, later'', rfl, similar, ?_⟩
      rwa [List.append_assoc] at retraced

/-! ## Pipelines -/

/-- A pipeline that reads what it read leaves what it left. -/
theorem retraces_follow {p : Pipeline} (passing : PassingLeaf p.leaf.stages)
    (ended : Ready scope final) (whole : Grown written start final)
    (apart : scope.InputsApart p.input.pattern written start final)
    (there : start.isDirectory scope.host.current scope.settings.workDir = true) :
    Retraces scope written start final (follow scope p) := by
  have stops : ∀ {g cause}, (readInput scope p.input).over g = (.error cause, g) →
      follow scope p g = ⟨some cause, g, []⟩ := by
    intro g cause read
    unfold follow
    rw [read]
  rcases readInput_between begun ended whole apart there with ⟨_ | entries, same⟩ | tooLong
  · -- nothing is read
    refine retraces_of_quiet (fun g between => ⟨_, stops (same g between)⟩) fun g h inG inH => ?_
    rw [stops (same g inG), stops (same h inH)]
    exact similar_refl _
  · -- both runs read the same mapping
    intro done fs later retraced last sub
    have reads : ∀ g, Between scope written start final g → follow scope p g =
        passLeaf scope p.input p.leaf.output p.leaf.stages entries g := by
      intro g between
      unfold follow
      rw [same g between]
    rw [reads fs retraced.between] at last sub ⊢
    rw [reads later retraced.between_later]
    exact retraces_passLeaf begun stay p.input p.leaf.output passing entries _ _ _ retraced last sub
  · -- both searches fail, maybe over different names
    refine retraces_of_quiet (fun g between => ?_) fun g h inG inH => ?_
    · obtain ⟨fault, -, read⟩ := tooLong g between
      exact ⟨_, stops read⟩
    · obtain ⟨a, reason, read⟩ := tooLong g inG
      obtain ⟨b, reason', read'⟩ := tooLong h inH
      rw [stops read, stops read']
      exact .some (.inr ⟨a, b, rfl, rfl, reason, reason'⟩)

end

/-- A pipeline for files whose stages look at no files but the templates. -/
structure Tame (p : Pipeline) : Prop where
  built : build .builtIn p.input p.leaf = .ok p
  fromFiles : p.input.kind.isCapture = false
  passing : PassingLeaf p.leaf.stages

section

variable (onFiles : scope.OnFiles) {pipelines : List Pipeline} (tame : ∀ p ∈ pipelines, Tame p)
include onFiles tame

theorem each_left (ready : Ready scope fs) :
    Left scope fs (filesBehind fs (each scope pipelines fs)) (writtenBy scope pipelines fs) := by
  induction pipelines generalizing fs with
  | nil => exact .refl ready
  | cons p rest ih =>
    obtain ⟨built, fromFiles, passing⟩ := tame p List.mem_cons_self
    have first := follow_left passing ready
    have others := ih (fun p mem => tame p (List.mem_cons_of_mem _ mem)) first.ready
    rw [Pipeline.each, filesBehind_cons, (over_follow onFiles built fromFiles passing fs).2]
    exact first.trans others

/-- Pipelines that are run again, one behind the other. -/
theorem Retraced.each (begun : Ready scope start) (ended : Ready scope final)
    (stay : TemplatesStay scope written start final)
    (there : start.isDirectory scope.host.current scope.settings.workDir = true)
    (apart : ∀ p ∈ pipelines, scope.InputsApart p.input.pattern written start final)
    (retraced : Retraced scope written start final done fs later)
    (last : filesBehind fs (each scope pipelines fs) = final)
    (sub : writtenBy scope pipelines fs ⊆ written) :
    List.Forall₂ (fun r r' => Outcome.Similar r.1 r'.1) (each scope pipelines fs)
        (each scope pipelines later) ∧
      Retraced scope written start final (done ++ writtenBy scope pipelines fs) final
        (filesBehind later (each scope pipelines later)) := by
  -- both runs go through the pipelines side by side, and `Retraced` is what holds between them
  induction pipelines generalizing done fs later with
  | nil =>
    cases last
    refine ⟨.nil, ?_⟩
    rwa [writtenBy, List.append_nil]
  | cons p rest ih =>
    obtain ⟨built, fromFiles, passing⟩ := tame p List.mem_cons_self
    have others : ∀ p ∈ rest, Tame p := fun p mem => tame p (List.mem_cons_of_mem _ mem)
    obtain ⟨cause, behind⟩ := over_follow onFiles built fromFiles passing fs
    obtain ⟨cause', behind'⟩ := over_follow onFiles built fromFiles passing later
    obtain ⟨subFirst, subRest⟩ := List.append_subset.mp sub
    rw [Pipeline.each, filesBehind_cons, behind] at last
    have left := each_left onFiles others (follow_left passing retraced.between.ready).ready
    rw [last] at left
    -- this pipeline, and then the others from where it has left both runs
    have retraces := retraces_follow begun stay passing ended
      (retraced.between.grown.trans retraced.between.last) (apart p List.mem_cons_self) there
    obtain ⟨fault?, later', again, similar, retraced⟩ :=
      retraces done fs later retraced (left.grown.mono subRest) subFirst
    rw [again] at cause' behind'
    obtain ⟨outcomes, retraced⟩ := ih others (fun p mem => apart p (List.mem_cons_of_mem _ mem))
      retraced last subRest
    rw [Pipeline.each, Pipeline.each, filesBehind_cons, behind, behind', writtenBy,
      ← List.append_assoc]
    refine ⟨.cons ⟨?_, ?_⟩ outcomes, retraced⟩
    · rw [Run.label_over onFiles, Run.label_over onFiles]
    · rw [cause, cause']
      exact similar

end

end Rerun

end Branchwork
