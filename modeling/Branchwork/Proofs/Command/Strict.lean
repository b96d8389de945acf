import Branchwork.Proofs.Command.Call
import Branchwork.Proofs.Command.Startup

/-!
# The status of `run`

A call of `run` ends with status 0 as soon as its pipelines are built, whatever fails then; a strict
call tells by its status whether a pipeline failed. In everything else the two are the same, and what
ends with another status has left the files as they were. The exception is a run that is stopped by a
report which the console refuses, in the middle of its pipelines.

Main result: `Call.strict_status`.
-/

namespace Branchwork.Command

open Action Markup

/-- The status that a command ends with; what nothing was prepared for ends it with status 1. -/
def Ending.status : Ending → Nat
  | .exit status => status
  | .stopped _ => 1

/-! ## Faults that are shown -/

theorem plain_faultLine {start : String} (clear : ∀ c ∈ start.toList, c ≠ '[' ∧ c ≠ '\\')
    (fault : Fault) :
    ∃ shown, plain s!"[red]✗[/red] {start}{escape fault.message}" = .ok shown := by
  have split : (s!"[red]✗[/red] {start}{escape fault.message}").toList =
      ("[red]✗[/red] ".toList ++ start.toList) ++ ((escape fault.message).toList ++ []) := by
    simp only [toString, String.toList_append, List.append_assoc, List.append_nil]
  refine plain_marked [] "red".toList "✗".toList (' ' :: start.toList) (by decide +kernel) ?_
    (tagsFrom_escape (by decide) _) split (by simp)
  intro c mem
  rcases List.mem_cons.mp mem with rfl | mem
  · decide
  · rcases List.mem_cons.mp mem with rfl | mem
    · decide
    · exact clear c mem

/-- A fault that a command is prepared for is shown and gives the status 1; others go on. -/
theorem orderly_error {α : Type} {start : String}
    (clear : ∀ c ∈ start.toList, c ≠ '[' ∧ c ≠ '\\') {action : Action α} {w mid : World}
    {fault : Fault} (failed : action.on w = (.error fault, mid)) :
    ∃ w', w'.files = mid.files ∧ ∀ next, (orderly start action next).on w =
      if isBuildFault fault then (.ok 1, w') else (.error fault, mid) := by
  obtain ⟨w', moved, shown⟩ := Run.printMarkup_moved (plain_faultLine clear fault) mid
  refine ⟨w', moved.files_eq, fun next => ?_⟩
  rw [orderly, on_bind_ok (on_attempt action w), failed]
  dsimp only
  cases isBuildFault fault with
  | true => exact on_bind_ok shown
  | false => rfl

/-! ## Refusals -/

/-- A refused command line ends unsuccessfully and leaves the files as they are. -/
theorem refuse_on (fault : UsageFault) (w : World) :
    ∃ result w', (refuse fault).on w = (result, w') ∧ result ≠ .ok 0 ∧ w'.files = w.files := by
  unfold refuse
  split
  · exact ⟨_, w, rfl, (nomatch ·), rfl⟩
  · exact ⟨.ok usageStatus, _, rfl, by simp [usageStatus], rfl⟩

namespace Call

/-! ## Plain and strict calls -/

/-- How actions end that are the same but for being strict: without success before any pipeline
starts, with a report that is refused, or with all pipelines attempted. Only then it makes a
difference whether the action is strict. -/
inductive Ends (begun : Begun → World → Prop) (w : World)
    (act : Bool → Except Fault Nat × World) : Prop
  | fails {result w'} : (¬ ∃ b v, begun b v) → result ≠ .ok 0 → w'.files = w.files →
      (∀ strict, act strict = (result, w')) → Ends begun w act
  | refused {b v r problem w'} : begun b v → r ∈ Pipeline.each b.scope b.pipelines v.files →
      Run.Refused r.1 problem → (∀ strict, act strict = (.error (.markup problem), w')) →
      Ends begun w act
  | completes {b v w'} : begun b v → (∀ strict, act strict =
      (.ok (if strict && (Pipeline.each b.scope b.pipelines v.files).any (·.1.failure.isSome)
        then 1 else 0), w')) → Ends begun w act

theorem any_isSome {results : List (Outcome × FileSystem)} :
    results.any (·.1.failure.isSome) = !(results.filterMap (·.1.failure)).isEmpty := by
  induction results with
  | nil => rfl
  | cons r rest ih => cases failed : r.1.failure <;> simp [failed, ih]

theorem run_ends (c : Call) (host : Host) (w : World) :
    Ends (c.Builds host w) w fun strict =>
      (run host c.experiment c.workDir c.flags strict c.verbose).on w := by
  -- strictness matters behind the attempt only
  have unfolds : ∀ strict, run host c.experiment c.workDir c.flags strict c.verbose =
      orderly "" (c.attempt host) fun result => do
        showFailures result.failures
        return if strict && !result.isSuccess then 1 else 0 := fun _ => rfl
  simp only [unfolds]
  have noStart : ∀ c ∈ "".toList, c ≠ '[' ∧ c ≠ '\\' := by simp
  rcases c.attempt_cases host w with ⟨fault, mid, failed, files, notBegun⟩ |
    ⟨b, v, builds, files, ⟨r, mem, problem, mid, refused, failed⟩ | ⟨mid, ran⟩⟩
  · obtain ⟨w', same, ends⟩ := orderly_error noStart failed
    cases expected : isBuildFault fault with
    | true =>
      have unsuccessful : (.ok 1 : Except Fault Nat) ≠ .ok 0 := by simp
      exact .fails notBegun unsuccessful (same.trans files) fun _ => by rw [ends, expected]; rfl
    | false =>
      have unsuccessful : (.error fault : Except Fault Nat) ≠ .ok 0 := by simp
      exact .fails notBegun unsuccessful files fun _ => by rw [ends, expected]; rfl
  · -- no command is prepared for a report that is refused
    obtain ⟨w', -, ends⟩ := orderly_error noStart failed
    exact .refused builds (files ▸ mem) refused fun _ => (ends _).trans (if_neg (by simp [isBuildFault]))
  · -- the failures are shown, and the status tells of them only to the strict call
    obtain ⟨w', -, shown⟩ := showFailures_on
      ((Pipeline.each b.scope b.pipelines w.files).filterMap (·.1.failure)) mid
    refine @Ends.completes _ _ _ b v w' builds fun strict => ?_
    rw [orderly, on_bind_ok (on_attempt _ w), ran]
    dsimp only
    rw [on_bind_ok shown, files, any_isSome]
    rfl

/-! ## Up to the command line -/

theorem performVerb_on (c : Call) (host : Host) (strict : Bool) (w : World) :
    (performVerb host .run (c.behind strict)).on w =
      match c.check w.files host.current with
      | .error problem => (refuse ⟨some .run, problem⟩).on w
      | .ok _ => match (run host c.experiment c.workDir c.flags strict c.verbose).on w with
        | (.ok status, w') => (.ok status, w')
        | (.error (.badFlag written), w') =>
          (refuse ⟨some .run, .badFlag (Fault.badFlag written).message⟩).on w'
        | (.error fault, w') => (.error fault, w') := by
  rw [performVerb, on_bind_ok (on_files w), c.request]
  cases c.check w.files host.current with
  | error problem => rfl
  | ok =>
    dsimp only [Except.map, Except.mapError]
    rw [on_bind_ok (on_attempt _ w), perform]
    rcases (run host c.experiment c.workDir c.flags strict c.verbose).on w with ⟨fault | status, w'⟩
    · cases fault <;> rfl
    · rfl

theorem performVerb_ends (c : Call) (host : Host) (w : World) :
    Ends (fun b v => c.check w.files host.current = .ok () ∧ c.Builds host w b v) w fun strict =>
      (performVerb host .run (c.behind strict)).on w := by
  simp only [performVerb_on]
  cases checked : c.check w.files host.current with
  | error problem =>
    obtain ⟨result, w', refused, unsuccessful, files⟩ := refuse_on ⟨some .run, problem⟩ w
    exact .fails (fun ⟨_, _, h, _⟩ => nomatch h) unsuccessful files fun _ => refused
  | ok =>
    simp only [true_and]
    cases c.run_ends host w with
    | @fails result w' notBegun unsuccessful files same =>
      simp only [same]
      cases result with
      | ok status => exact .fails notBegun unsuccessful files fun _ => rfl
      | error fault =>
        -- a flag that cannot be read is refused like any other word
        cases fault with
        | badFlag written =>
          obtain ⟨result, w'', refused, unsuccessful', files'⟩ :=
            refuse_on ⟨some .run, .badFlag (Fault.badFlag written).message⟩ w'
          exact .fails notBegun unsuccessful' (files'.trans files) fun _ => refused
        | _ => exact .fails notBegun unsuccessful files fun _ => rfl
    | refused builds mem refused same =>
      simp only [same]
      exact .refused builds mem refused fun _ => rfl
    | completes builds same =>
      simp only [same]
      exact .completes builds fun _ => rfl

/-- The environment is complete and the paths of a call lead to something; the experiment is loaded and
its pipelines are built. -/
def Begins (c : Call) (host : Host) (w : World) (b : Begun) (w' : World) : Prop :=
  c.environmentFile.any hasNull = false ∧ ∃ host' file started,
    (Startup.load host c.environmentFile).on w = (.ok (host', file), started) ∧
    c.check started.files host'.current = .ok () ∧ c.Builds host' started b w'

/-- A call begins in one way. -/
theorem Begins.unique {c : Call} {host : Host} {w v v' : World} {b b' : Begun}
    (h : c.Begins host w b v) (h' : c.Begins host w b' v') : b = b' ∧ v = v' := by
  obtain ⟨e, setup, scope, pipelines⟩ := b
  obtain ⟨e', setup', scope', pipelines'⟩ := b'
  obtain ⟨-, host', file, started, completed, -, loaded, configured, built⟩ := h
  obtain ⟨-, host'', file', started', completed', -, loaded', configured', built'⟩ := h'
  cases completed.symm.trans completed'
  cases loaded.symm.trans loaded'
  cases configured.symm.trans configured'
  cases built.symm.trans built'
  exact ⟨rfl, rfl⟩

theorem Begins.onFiles {c : Call} {host : Host} {w v : World} {b : Begun}
    (h : c.Begins host w b v) : b.scope.OnFiles := by
  obtain ⟨-, _, _, _, -, -, -, -, built⟩ := h
  exact Run.prepare_onFiles (Run.build_eq_ok built).1

theorem performLine_ends (c : Call) (host : Host) (w : World) :
    Ends (c.Begins host w) w fun strict => (performLine host (c.words strict)).on w := by
  simp only [performLine_words]
  cases null : c.environmentFile.any hasNull with
  | true =>
    obtain ⟨result, w', refused, unsuccessful, files⟩ := refuse_on ⟨none, .nullByte⟩ w
    refine .fails ?_ unsuccessful files fun _ => refused
    rintro ⟨_, _, h, _⟩
    cases null.symm.trans h
  | false =>
    simp only [Bool.false_eq_true, if_false]
    obtain ⟨log, onlyLogs⟩ := Startup.load_onlyLogs host c.environmentFile w
    rcases completed : (Startup.load host c.environmentFile).on w with ⟨fault | ⟨host', file⟩, started⟩
    · rw [completed] at onlyLogs
      have files : started.files = w.files := by rw [show started = _ from onlyLogs]
      have unsuccessful : (.error fault : Except Fault Nat) ≠ .ok 0 := by simp
      refine .fails ?_ unsuccessful files fun _ => on_bind_error completed
      rintro ⟨_, _, -, _, _, _, h, -⟩
      cases completed.symm.trans h
    · rw [completed] at onlyLogs
      have files : started.files = w.files := by rw [show started = _ from onlyLogs]
      simp only [on_bind_ok completed]
      cases c.performVerb_ends host' started with
      | fails notBegun unsuccessful same ends =>
        refine .fails ?_ unsuccessful (same.trans files) ends
        rintro ⟨b, v, -, _, _, _, h, begun⟩
        cases completed.symm.trans h
        exact notBegun ⟨b, v, begun⟩
      | refused begun mem refused ends =>
        exact .refused ⟨null, host', file, started, completed, begun⟩ mem refused ends
      | completes begun ends =>
        exact .completes ⟨null, host', file, started, completed, begun⟩ ends

/-! ## Statuses -/

/-- How a call ends, and the world behind it. -/
def performed (c : Call) (host : Host) (strict : Bool) (w : World) : Ending × World :=
  StateT.run (performAll host (c.words strict)) w

/-- A call with status 0 has begun; a call that begins has status 0 whatever fails then, unless a report
is refused. A strict call leaves the same world. It has the status of the plain one if that is not 0, and
otherwise tells whether a pipeline failed. A call with another status has left the files as they were,
unless it was stopped by a report. -/
theorem strict_status (c : Call) (host : Host) (w : World) :
    (c.performed host true w).2 = (c.performed host false w).2 ∧
    ((c.performed host false w).1.status ≠ 0 →
      (c.performed host true w).1 = (c.performed host false w).1 ∧
      ((c.performed host false w).2.files = w.files ∨
        ∃ problem, (c.performed host false w).1 = .stopped (.markup problem))) ∧
    ((c.performed host false w).1.status = 0 → ∃ b v, c.Begins host w b v) ∧
    ∀ b v, c.Begins host w b v → ∃ results,
      Pipeline.Attempts b.scope v.files b.pipelines results ∧
      ((c.performed host false w).1 = .exit 0 ∨ ∃ r ∈ results, ∃ problem,
        Run.Refused r.1 problem ∧ (c.performed host false w).1 = .stopped (.markup problem)) ∧
      ((c.performed host false w).1 = .exit 0 →
        ((c.performed host true w).1 = .exit 1 ↔ ∃ r ∈ results, r.1.failure ≠ none) ∧
        ((c.performed host true w).1 = .exit 0 ↔ ∀ r ∈ results, r.1.failure = none)) := by
  -- three ways to end: without a run, at a refused report, or with the failures shown
  cases c.performLine_ends host w with
  | @fails result w' notBegun unsuccessful files same =>
    obtain ⟨ending, nonzero, ends⟩ : ∃ ending : Ending, ending.status ≠ 0 ∧
        ∀ strict, c.performed host strict w = (ending, w') := by
      simp only [performed, performAll_run, same]
      cases result with
      | ok status => exact ⟨.exit status, fun zero => unsuccessful (congrArg _ zero), fun _ => rfl⟩
      | error fault => exact ⟨.stopped fault, by simp [Ending.status], fun _ => rfl⟩
    simp only [ends]
    exact ⟨trivial, fun _ => ⟨trivial, .inl files⟩, fun zero => absurd zero nonzero,
      fun b v begins => absurd ⟨b, v, begins⟩ notBegun⟩
  | @refused b v r problem w' begins mem refused same =>
    have ends : ∀ strict, c.performed host strict w = (.stopped (.markup problem), w') := by
      simp only [performed, performAll_run, same, implies_true]
    simp only [ends]
    refine ⟨trivial, fun _ => ⟨trivial, .inr ⟨problem, rfl⟩⟩, (nomatch ·), fun b' v' begins' => ?_⟩
    obtain ⟨rfl, rfl⟩ := begins.unique begins'
    exact ⟨_, Run.attempts_each begins.onFiles _ _, .inr ⟨r, mem, problem, refused, rfl⟩,
      (nomatch ·)⟩
  | @completes b v w' begins same =>
    have ends : ∀ strict, c.performed host strict w = (.exit (if strict &&
        (Pipeline.each b.scope b.pipelines v.files).any (·.1.failure.isSome) then 1 else 0), w') := by
      simp only [performed, performAll_run, same, implies_true]
    simp only [ends]
    refine ⟨trivial, fun nonzero => absurd rfl nonzero, fun _ => ⟨b, v, begins⟩,
      fun b' v' begins' => ?_⟩
    obtain ⟨rfl, rfl⟩ := begins.unique begins'
    refine ⟨_, Run.attempts_each begins.onFiles _ _, .inl rfl, fun _ => ?_⟩
    generalize Pipeline.each b.scope b.pipelines v.files = results
    simp only [Bool.true_and]
    -- the status of a strict call is whether any pipeline failed
    cases failed : results.any (·.1.failure.isSome) with
    | true =>
      obtain ⟨r, mem, isSome⟩ := List.any_eq_true.mp failed
      have some_fails : r.1.failure ≠ none := Option.isSome_iff_ne_none.mp isSome
      exact ⟨⟨fun _ => ⟨r, mem, some_fails⟩, fun _ => rfl⟩,
        ⟨(nomatch ·), fun all => absurd (all r mem) some_fails⟩⟩
    | false =>
      have none_fails : ∀ r ∈ results, r.1.failure = none := fun r mem =>
        Option.not_isSome_iff_eq_none.mp (List.any_eq_false.mp failed r mem)
      exact ⟨⟨(nomatch ·), fun ⟨r, mem, fails⟩ => absurd (none_fails r mem) fails⟩,
        ⟨fun _ => none_fails, fun _ => rfl⟩⟩

/-- A call with a flag that has no value. -/
def valueless : Call := ⟨none, none, ["novalue"], false, "e.yaml"⟩

theorem valueless_ends (strict : Bool) :
    (valueless.performed (.plain [] ["work"]) strict (.start emptyFiles)).1 = .exit 2 := by
  have loads : ((Run.load (Host.plain [] ["work"]) (.ofText "e.yaml")).on
      (.start emptyFiles)).1.toOption.any (fun _ => true) = true := by
    decide +kernel
  obtain ⟨e, -, loaded⟩ := exists_loaded loads
  have configured : (setupOf (Host.plain [] ["work"]) none ["novalue"] false).on
      (.start emptyFiles) = (.error (.badFlag "novalue"), .start emptyFiles) := rfl
  have failed : (valueless.attempt (.plain [] ["work"])).on (.start emptyFiles) =
      (.error (.badFlag "novalue"), .start emptyFiles) := by
    rw [attempt, show valueless.experiment = "e.yaml" from rfl, on_bind_ok loaded]
    exact on_bind_error configured
  have taken : takeExperiment emptyFiles ["work"] ["e.yaml"] = .ok "e.yaml" := by
    rw [takeExperiment, if_neg (by simp [hasNull])]
    decide +kernel
  have checked : valueless.check (World.start emptyFiles).files
      (Host.plain [] ["work"]).current = .ok () := by
    show discard (takeExperiment emptyFiles ["work"] ["e.yaml"]) = .ok ()
    rw [taken]
    rfl
  -- the flags are read while the command runs, and the command line is refused then
  obtain ⟨_, -, ends⟩ := orderly_error (show ∀ c ∈ "".toList, c ≠ '[' ∧ c ≠ '\\' by simp) failed
  have stops : (run (Host.plain [] ["work"]) valueless.experiment valueless.workDir valueless.flags
      strict valueless.verbose).on (.start emptyFiles) =
      (.error (.badFlag "novalue"), .start emptyFiles) := ends _
  have begins : (Startup.load (Host.plain [] ["work"]) none).on (.start emptyFiles) =
      (.ok (.plain [] ["work"], none), .start emptyFiles) := rfl
  have verb : ∃ w, (performVerb (.plain [] ["work"]) .run (valueless.behind strict)).on
      (.start emptyFiles) = (.ok 2, w) := by
    rw [performVerb_on, checked, stops]
    exact ⟨_, rfl⟩
  obtain ⟨w, verb⟩ := verb
  rw [performed, performAll_run, performLine_words,
    if_neg (show ¬ valueless.environmentFile.any hasNull = true by simp [valueless]),
    show valueless.environmentFile = none from rfl, on_bind_ok begins, verb]

/-- A flag that has no value makes a bad command line, which has a status of its own: then a strict call
does not end with status 1, though the plain one does not end with 0. -/
theorem strict_valueless :
    ¬ ((valueless.performed (.plain [] ["work"]) true (.start emptyFiles)).1.status = 1 ↔
      (valueless.performed (.plain [] ["work"]) false (.start emptyFiles)).1.status ≠ 0 ∨
        ∃ b v results, valueless.Begins (.plain [] ["work"]) (.start emptyFiles) b v ∧
          Pipeline.Attempts b.scope v.files b.pipelines results ∧
          ∃ r ∈ results, r.1.failure ≠ none) := by
  rw [valueless_ends, valueless_ends]
  exact fun same => nomatch same.mpr (.inl (by simp [Ending.status]))

end Call

end Branchwork.Command
