import Branchwork.Proofs.Command.Status

/-!
# Calls of `run`

A call of `run` names an experiment. It may name an environment file and a working directory, give
flags, and ask for every pipeline to be shown; and it may ask for a strict status. `Call.words` says
how it is written.

Main results:

* `Call.request` — how the words are read.
* `Call.attempt_cases` — what a call comes to before anything is said about its status.
-/

namespace Branchwork.Command

open Action Markup

/-- A call of `run`. -/
structure Call where
  environmentFile : Option String
  workDir : Option String
  flags : List String
  verbose : Bool
  experiment : String

namespace Call

/-! ## Words -/

/-- The words behind the name of the command. -/
def behind (c : Call) (strict : Bool) : List String :=
  c.workDir.toList.flatMap (fun directory => ["-C", directory]) ++
    (c.flags.flatMap (fun flag => ["-f", flag]) ++
      ((if c.verbose then ["-v"] else []) ++ ((if strict then ["--strict"] else []) ++
        ["--", c.experiment])))

/-- The words of a call. -/
def words (c : Call) (strict : Bool) : List String :=
  c.environmentFile.toList.flatMap (fun file => ["--env-file", file]) ++ "run" :: c.behind strict

/-- The options that the words behind the name are read as. -/
def options (c : Call) (strict : Bool) : List (String × Option String) :=
  c.workDir.toList.map (fun directory => ("--work-dir", some directory)) ++
    (c.flags.map (fun flag => ("--flag", some flag)) ++
      ((if c.verbose then [("--verbose", none)] else []) ++
        if strict then [("--strict", none)] else []))

/-- A word with an option that takes the next word for its value. -/
theorem readWords_taking {switches : List Switch} {mixed : Bool} {word value : String}
    {found : List (String × Option String)} (notEnd : word ≠ "--")
    (holds : holdsOptions word = true)
    (reads : readOptions switches word.toList (some value) = .ok ⟨found, true⟩)
    (read : Arguments) (rest : List String) :
    readWords switches mixed read (word :: value :: rest) =
      readWords switches mixed { read with options := read.options ++ found } rest := by
  rw [readWords.eq_def]
  dsimp only
  rw [if_neg notEnd, if_pos holds, List.head?_cons, reads]

/-- A word with an option that takes no value. -/
theorem readWords_plain {switches : List Switch} {mixed : Bool} {word : String}
    {found : List (String × Option String)} (notEnd : word ≠ "--")
    (holds : holdsOptions word = true)
    (reads : ∀ next, readOptions switches word.toList next = .ok ⟨found, false⟩)
    (read : Arguments) (rest : List String) :
    readWords switches mixed read (word :: rest) =
      readWords switches mixed { read with options := read.options ++ found } rest := by
  rw [readWords.eq_def]
  dsimp only
  rw [if_neg notEnd, if_pos holds, reads]

theorem readWords_flags (read : Arguments) (flags rest : List String) :
    readWords Verb.run.switches true read (flags.flatMap (fun flag => ["-f", flag]) ++ rest) =
      readWords Verb.run.switches true
        { read with options := read.options ++ flags.map fun flag => ("--flag", some flag) }
        rest := by
  induction flags generalizing read with
  | nil => simp
  | cons flag flags ih =>
    have first : readOptions Verb.run.switches "-f".toList (some flag) =
        .ok ⟨[("--flag", some flag)], true⟩ := rfl
    rw [List.flatMap_cons, List.append_assoc, List.cons_append, List.cons_append, List.nil_append,
      readWords_taking (by decide) (by decide) first, ih]
    simp

/-- Every option of a call is read, and the experiment is its operand. -/
theorem read_behind (c : Call) (strict : Bool) :
    Arguments.read Verb.run.switches true (c.behind strict) =
      .ok ⟨c.options strict, [c.experiment]⟩ := by
  -- each part of the words is taken by itself, and leaves the rest to be read
  have directory : ∀ rest : List String, readWords Verb.run.switches true ⟨[], []⟩
      (c.workDir.toList.flatMap (fun directory => ["-C", directory]) ++ rest) =
      readWords Verb.run.switches true
        ⟨c.workDir.toList.map fun directory => ("--work-dir", some directory), []⟩ rest := by
    intro rest
    cases c.workDir with
    | none => rfl
    | some directory =>
      have option : readOptions Verb.run.switches "-C".toList (some directory) =
          .ok ⟨[("--work-dir", some directory)], true⟩ := rfl
      exact readWords_taking (by decide) (by decide) option _ rest
  have verbose : ∀ (read : Arguments) (rest : List String), readWords Verb.run.switches true read
      ((if c.verbose then ["-v"] else []) ++ rest) = readWords Verb.run.switches true
        { read with options := read.options ++ if c.verbose then [("--verbose", none)] else [] }
        rest := by
    intro read rest
    cases c.verbose with
    | false => simp
    | true => exact readWords_plain (by decide) (by decide) (fun _ => rfl) read rest
  have strictly : ∀ (read : Arguments) (rest : List String), readWords Verb.run.switches true read
      ((if strict then ["--strict"] else []) ++ rest) = readWords Verb.run.switches true
        { read with options := read.options ++ if strict then [("--strict", none)] else [] }
        rest := by
    intro read rest
    cases strict with
    | false => simp
    | true => exact readWords_plain (by decide) (by decide) (fun _ => rfl) read rest
  rw [Arguments.read, behind, directory, readWords_flags, verbose, strictly, readWords.eq_def]
  simp [options]

/-! ## The request -/

/-- The working directory and the experiment of a call lead to something. -/
def check (c : Call) (files : FileSystem) (current : Location) : Except UsageProblem Unit := do
  checkDirectory files current c.workDir
  discard (takeExperiment files current [c.experiment])

theorem value?_options (c : Call) (strict : Bool) (operands : List String) :
    Arguments.value? ⟨c.options strict, operands⟩ directorySwitch.name = c.workDir := by
  have flags : (c.flags.map fun flag => ("--flag", some flag)).reverse.lookup
      directorySwitch.name = none := by
    rw [List.lookup_eq_none_iff]
    intro entry mem
    obtain ⟨flag, -, rfl⟩ := List.mem_map.mp (List.mem_reverse.mp mem)
    rfl
  simp only [Arguments.value?, options, List.reverse_append, List.lookup_append, flags]
  cases c.workDir <;> cases c.verbose <;> cases strict <;> rfl

theorem values_append (options more : List (String × Option String)) (operands : List String)
    (name : String) : Arguments.values ⟨options ++ more, operands⟩ name =
      Arguments.values ⟨options, operands⟩ name ++ Arguments.values ⟨more, operands⟩ name :=
  List.filterMap_append

theorem values_options (c : Call) (strict : Bool) (operands : List String) :
    Arguments.values ⟨c.options strict, operands⟩ flagSwitch.name = c.flags := by
  have flags : Arguments.values ⟨c.flags.map fun flag => ("--flag", some flag), operands⟩
      flagSwitch.name = c.flags := by
    rw [Arguments.values, List.filterMap_map]
    exact List.filterMap_some
  rw [options, values_append, values_append, values_append, flags]
  cases c.workDir <;> cases c.verbose <;> cases strict <;> simp [Arguments.values, flagSwitch]

theorem has_options (c : Call) (strict : Bool) (operands : List String) :
    Arguments.has ⟨c.options strict, operands⟩ helpSwitch.name = false ∧
      Arguments.has ⟨c.options strict, operands⟩ strictSwitch.name = strict ∧
      Arguments.has ⟨c.options strict, operands⟩ verboseSwitch.name = c.verbose := by
  have flags : ∀ name, name ≠ flagSwitch.name →
      (c.flags.map fun flag => (flagSwitch.name, some flag)).any (·.1 = name) = false := by
    intro name other
    rw [List.any_eq_false]
    intro entry mem
    obtain ⟨flag, -, rfl⟩ := List.mem_map.mp mem
    simpa using other.symm
  have none := flags helpSwitch.name (by decide)
  have none' := flags strictSwitch.name (by decide)
  have none'' := flags verboseSwitch.name (by decide)
  simp only [Arguments.has, options, List.any_append]
  rw [show "--flag" = flagSwitch.name from rfl, none, none', none'']
  cases c.workDir <;> cases c.verbose <;> cases strict <;> exact ⟨rfl, rfl, rfl⟩

/-- A call is read as what it says, if its paths lead to something. -/
theorem request (c : Call) (strict : Bool) (files : FileSystem) (current : Location) :
    Request.read files current .run (c.behind strict) =
      ((c.check files current).map fun _ =>
        Request.run c.experiment c.workDir c.flags strict c.verbose).mapError (⟨some .run, ·⟩) := by
  obtain ⟨noHelp, isStrict, isVerbose⟩ := c.has_options strict [c.experiment]
  rw [Request.read, c.read_behind strict]
  dsimp only
  rw [noHelp, if_neg (by decide), Request.ofArguments, c.value?_options, c.values_options, isStrict,
    isVerbose, check]
  cases checkDirectory files current c.workDir with
  | error problem => rfl
  | ok =>
    cases operand : takeExperiment files current [c.experiment] with
    | error problem => rfl
    | ok taken =>
      cases takeExperiment_single operand
      rfl

/-- The words up to the name of the command are read first. -/
theorem performLine_words (c : Call) (host : Host) (strict : Bool) :
    performLine host (c.words strict) =
      if c.environmentFile.any hasNull then refuse ⟨none, .nullByte⟩
      else (do
        let (host, _) ← Startup.load host c.environmentFile
        performVerb host .run (c.behind strict)) := by
  -- either the command stands first, or the one option before it takes a word
  cases file : c.environmentFile with
  | none =>
    have line : c.words strict = Verb.run.name :: c.behind strict := by
      rw [words, file]
      rfl
    rw [line, performLine_verb]
    rfl
  | some text =>
    have line : c.words strict = "--env-file" :: text :: "run" :: c.behind strict := by
      rw [words, file]
      rfl
    have opening : Opening.read (c.words strict) = if hasNull text then .error ⟨none, .nullByte⟩
        else .ok (.command (some text) .run (c.behind strict)) := by
      have first : Arguments.read leadingSwitches false (c.words strict) =
          .ok ⟨[("--env-file", some text)], "run" :: c.behind strict⟩ := by
        have option : readOptions leadingSwitches "--env-file".toList (some text) =
            .ok ⟨[("--env-file", some text)], true⟩ := rfl
        rw [Arguments.read, line, readWords_taking (by decide) (by decide) option,
          readWords.eq_def]
        rfl
      rw [Opening.read, first]
      have given : Arguments.value? ⟨[("--env-file", some text)], "run" :: c.behind strict⟩
          environmentSwitch.name = some text := rfl
      dsimp only [Except.mapError]
      show (if (Arguments.value? _ _).any hasNull then _ else _) = _
      rw [given, Option.any_some]
      cases hasNull text <;> rfl
    rw [performLine, opening, line, Option.any_some]
    cases hasNull text <;> rfl

/-! ## The attempt -/

/-- What a call tries to do. -/
def attempt (c : Call) (host : Host) : Action RunResult := do
  let e ← Run.load host (.ofText c.experiment)
  Run.experiment (← setupOf host c.workDir c.flags c.verbose) e

/-- The experiment of a call is loaded, with the settings that the call gives, and its pipelines are
built. -/
def Builds (c : Call) (host : Host) (w : World) (b : Begun) (w' : World) : Prop :=
  (Run.load host (.ofText c.experiment)).on w = (.ok b.experiment, w) ∧
    (setupOf host c.workDir c.flags c.verbose).on w = (.ok b.setup, w) ∧
    (Run.build b.setup b.experiment).on w = (.ok (b.scope, b.pipelines), w')

theorem setupOf_unchanged (host : Host) (workDir : Option String) (flags : List String)
    (verbose : Bool) (w : World) : ((setupOf host workDir flags verbose).on w).2 = w := by
  unfold setupOf
  refine bind_unchanged (fun w => by rw [on_ofExcept]) (fun read w => ?_) w
  dsimp only
  split
  · rfl
  · exact bind_unchanged (fun w => by rw [on_ofExcept]) (fun _ _ => rfl) w

/-- What a call tries fails before a pipeline has started and leaves the files as they are, or the
pipelines are attempted: all of them, or up to a report that is refused. -/
theorem attempt_cases (c : Call) (host : Host) (w : World) :
    (∃ fault w', (c.attempt host).on w = (.error fault, w') ∧ w'.files = w.files ∧
        ¬ ∃ b v, c.Builds host w b v) ∨
    ∃ b v, c.Builds host w b v ∧ v.files = w.files ∧
      ((∃ r ∈ Pipeline.each b.scope b.pipelines w.files, ∃ problem w', Run.Refused r.1 problem ∧
          (c.attempt host).on w = (.error (.markup problem), w')) ∨
        ∃ w', (c.attempt host).on w = (.ok ⟨b.pipelines.length,
          (Pipeline.each b.scope b.pipelines w.files).filterMap (·.1.failure)⟩, w')) := by
  -- the description is read, then the setup is made: neither changes anything
  have noLoad := load_unchanged host (.ofText c.experiment) w
  rcases loaded : (Run.load host (.ofText c.experiment)).on w with ⟨fault | e, v⟩
  · rw [loaded] at noLoad
    refine .inl ⟨fault, v, by rw [attempt, on_bind_error loaded], congrArg World.files noLoad, ?_⟩
    rintro ⟨b, v', loaded', -⟩
    cases loaded.symm.trans loaded'
  obtain rfl : v = w := by rw [loaded] at noLoad; exact noLoad
  have noSetup := setupOf_unchanged host c.workDir c.flags c.verbose v
  rcases configured : (setupOf host c.workDir c.flags c.verbose).on v with ⟨fault | setup, v'⟩
  · rw [configured] at noSetup
    refine .inl ⟨fault, v', by rw [attempt, on_bind_ok loaded, on_bind_error configured],
      congrArg World.files noSetup, ?_⟩
    rintro ⟨b, v'', -, configured', -⟩
    cases configured.symm.trans configured'
  obtain rfl : v' = v := by rw [configured] at noSetup; exact noSetup
  have runs : (c.attempt host).on v' = (Run.experiment setup e).on v' := by
    rw [attempt, on_bind_ok loaded, on_bind_ok configured]
  obtain ⟨log, onlyLogs⟩ := Run.build_onlyLogs setup e v'
  rcases built : (Run.build setup e).on v' with ⟨fault | ⟨scope, pipelines⟩, behind⟩
  · -- a fault of the build goes on
    rw [built] at onlyLogs
    have files : behind.files = v'.files := by rw [show behind = _ from onlyLogs]
    refine .inl ⟨fault, behind, by rw [runs, Run.experiment, on_bind_error built], files, ?_⟩
    rintro ⟨b, v'', loaded', configured', built'⟩
    cases loaded.symm.trans loaded'
    cases configured.symm.trans configured'
    cases built.symm.trans built'
  · rw [built] at onlyLogs
    have files : behind.files = v'.files := by rw [show behind = _ from onlyLogs]
    refine .inr ⟨⟨e, setup, scope, pipelines⟩, behind, ⟨loaded, configured, built⟩, files, ?_⟩
    obtain ⟨prepared, all⟩ := Run.build_eq_ok built
    rw [runs]
    -- the run ends, or stops at the first report that is refused
    by_cases fine : ∀ r ∈ Pipeline.each scope pipelines v'.files, ∀ problem, ¬ Run.Refused r.1 problem
    · obtain ⟨result, final, ran, rfl, -⟩ := Run.experiment_ends prepared all fine
      exact .inr ⟨final, ran⟩
    · obtain ⟨before, r, rest, problem, split, before_fine, refused⟩ :=
        Run.exists_first_refused fine
      obtain ⟨final, stopped, -⟩ := Run.experiment_stops prepared all split before_fine refused
      exact .inl ⟨r, by rw [split]; simp, problem, final, refused, stopped⟩

end Call

end Branchwork.Command
