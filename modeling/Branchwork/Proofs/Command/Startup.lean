import Branchwork.Command.Startup
import Branchwork.Proofs.Action
import Branchwork.Proofs.Settings.EnvironmentFile

/-!
# The environment that a command starts with

A command completes its environment from one file: the one that is asked for, if it is there, or else
the first of two files in the current directory that is there. The file is not read if the environment
turns that off.

Main result: `load_eq_ok` — which file counts, what is read of it, and the value of every variable in
the completed environment.
-/

namespace Branchwork.Startup

open Action EnvironmentFile

/-! ## Only messages are logged -/

theorem findExplicit_onlyLogs (host : Host) (given : Option String) :
    OnlyLogs (findExplicit host given) := by
  unfold findExplicit
  split
  · exact onlyLogs_pure _
  · refine (onlyLogs_ofExcept _ _).bind fun p => ?_
    have looks : OnlyLogs (do
        let p := absolute host.current p
        if (← look host.current p).isSome then return some p
        log .warning s!"Specified env file not found: {p.text}"
        return none) := by
      refine (onlyLogs_look _ _).bind fun found => ?_
      split
      · exact onlyLogs_pure _
      · exact (onlyLogs_log _ _).bind fun _ => onlyLogs_pure _
    dsimp only
    split
    · exact (onlyLogs_throw _).bind fun _ => looks
    · exact looks

theorem findLocal_onlyLogs (current : Location) (names : List String) :
    OnlyLogs (findLocal current names) := by
  induction names with
  | nil => exact onlyLogs_pure _
  | cons name rest ih =>
    refine (onlyLogs_look _ _).bind fun found => ?_
    split
    · exact onlyLogs_pure _
    · exact ih

theorem loadFile_onlyLogs (host : Host) (p : Path) : OnlyLogs (loadFile host p) := by
  unfold loadFile
  split
  · exact onlyLogs_pure _
  · refine (onlyLogs_look _ _).bind fun found => ?_
    split
    · exact (onlyLogs_ofExcept _ _).bind fun _ => onlyLogs_ofExcept _ _
    · exact onlyLogs_pure _

/-- The host with the variables of the chosen file. -/
def complete (host : Host) : Option Path → Action (Host × Option Path)
  | none => return (host, none)
  | some p => return ({ host with environment := ← loadFile host p }, some p)

/-- What is asked for comes before the files of the directory. -/
theorem load_eq (host : Host) (given : Option String) :
    load host given = findExplicit host given >>= fun explicit => match explicit with
      | some p => complete host (some p)
      | none => findLocal host.current localFiles >>= complete host := rfl

theorem complete_onlyLogs (host : Host) (chosen : Option Path) :
    OnlyLogs (complete host chosen) := by
  cases chosen with
  | none => exact onlyLogs_pure _
  | some p => exact (loadFile_onlyLogs host p).bind fun _ => onlyLogs_pure _

/-- Completing the environment does nothing but log. -/
theorem load_onlyLogs (host : Host) (given : Option String) : OnlyLogs (load host given) := by
  rw [load_eq]
  refine (findExplicit_onlyLogs host given).bind fun explicit => ?_
  split
  · exact complete_onlyLogs host _
  · exact (findLocal_onlyLogs _ _).bind (complete_onlyLogs host)

/-! ## The file that counts -/

/-- The path of the file that is asked for. -/
def asked (host : Host) (given : Option String) : Except Fault (Option Path) :=
  match explicit? host.environment given with
  | none => .ok none
  | some text =>
    (expandHome host.environment (.ofText text)).map fun p => some (absolute host.current p)

/-- Where an environment file is looked for, in order. -/
def candidates (asked : Option Path) (current : Location) : List Path :=
  asked.toList ++ localFiles.map fun name => ⟨.root, current ++ [name]⟩

/-- Whether a path leads to something. -/
def isThere (fs : FileSystem) (current : Location) (p : Path) : Bool :=
  match fs.look current p with
  | .ok (some _) => true
  | _ => false

theorem isThere_of_look {fs : FileSystem} {current : Location} {p : Path}
    {found : Option (Location × FileSystem.Entry)} (looked : fs.look current p = .ok found) :
    isThere fs current p = found.isSome := by
  rw [isThere, looked]
  cases found <;> rfl

theorem findExplicit_eq_ok {host : Host} {given : Option String} {w w' : World}
    {found : Option Path} (h : (findExplicit host given).on w = (.ok found, w')) :
    ∃ asked', asked host given = .ok asked' ∧
      found = asked'.filter (isThere w.files host.current) := by
  unfold findExplicit at h
  unfold asked
  cases isAsked : explicit? host.environment given with
  | none =>
    rw [isAsked] at h
    cases h
    exact ⟨none, rfl, rfl⟩
  | some text =>
    rw [isAsked] at h
    obtain ⟨p, v, first, ended⟩ := on_bind_eq_ok.mp h
    obtain ⟨expanded, rfl⟩ := on_ofExcept_eq_ok.mp first
    refine ⟨some (absolute host.current p), map_eq_ok.mpr ⟨p, expanded, rfl⟩, ?_⟩
    dsimp only at ended
    split at ended
    · cases ended
    · obtain ⟨there, mid, second, last⟩ := on_bind_eq_ok.mp ended
      obtain ⟨looked, rfl⟩ := on_look_eq_ok.mp second
      rw [Option.filter_some, isThere_of_look looked]
      -- a file that was asked for counts if there is something in its place
      split at last
      · rename_i isSome
        cases last
        rw [if_pos isSome]
      · rename_i isNone
        cases last
        rw [if_neg isNone]

theorem findLocal_eq_ok {current : Location} {names : List String} {w w' : World}
    {found : Option Path} (h : (findLocal current names).on w = (.ok found, w')) :
    w' = w ∧ found = (names.map fun name => (⟨.root, current ++ [name]⟩ : Path)).find?
      (isThere w.files current) := by
  induction names with
  | nil =>
    cases h
    exact ⟨rfl, rfl⟩
  | cons name rest ih =>
    rw [findLocal] at h
    obtain ⟨there, mid, looked, ended⟩ := on_bind_eq_ok.mp h
    obtain ⟨looked, rfl⟩ := on_look_eq_ok.mp looked
    rw [List.map_cons, List.find?_cons, isThere_of_look looked]
    cases there with
    | some entry =>
      cases ended
      exact ⟨rfl, rfl⟩
    | none => exact ih ended

/-- What is read of the file that counts. -/
inductive Reads (host : Host) (fs : FileSystem) :
    Option Path → List (String × Option String) → Prop
  | nothing : Reads host fs none []
  /-- The environment turns the reading off. -/
  | disabled {p} : isDisabled host.environment = true → Reads host fs (some p) []
  /-- A directory holds no variables. -/
  | noFile {p} : isDisabled host.environment = false →
      (∀ place bytes, fs.look host.current p ≠ .ok (some (place, .file bytes))) →
      Reads host fs (some p) []
  | file {p place bytes text} : isDisabled host.environment = false →
      fs.look host.current p = .ok (some (place, .file bytes)) → Utf8.decode bytes = .ok text →
      Reads host fs (some p)
        (valuesOf host.environment (String.ofList (Text.unifyLineEnds text.toList)))

theorem loadFile_eq_ok {host : Host} {p : Path} {w w' : World} {env : Environment}
    (h : (loadFile host p).on w = (.ok env, w')) : ∃ values, Reads host w.files (some p) values ∧
      ∀ name, env.get? name = (host.environment.get? name).or (values.lookup name).join := by
  -- a file that is not read changes no variable
  have unread : ∀ name, host.environment.get? name =
      (host.environment.get? name).or
        ((([] : List (String × Option String)).lookup name).join) := by
    intro name
    rw [List.lookup_nil, Option.join_none, Option.or_none]
  unfold loadFile at h
  split at h
  · rename_i disabled
    cases h
    exact ⟨[], .disabled disabled, unread⟩
  · rename_i enabled
    have enabled := Bool.eq_false_iff.mpr enabled
    obtain ⟨there, mid, looked, ended⟩ := on_bind_eq_ok.mp h
    obtain ⟨leads, rfl⟩ := on_look_eq_ok.mp looked
    split at ended
    · rename_i place bytes
      obtain ⟨text, v, first, last⟩ := on_bind_eq_ok.mp ended
      obtain ⟨decoded, rfl⟩ := on_ofExcept_eq_ok.mp first
      obtain ⟨completed, rfl⟩ := on_ofExcept_eq_ok.mp last
      exact ⟨_, .file enabled leads decoded, load_get? completed⟩
    · rename_i noFile
      cases ended
      refine ⟨[], .noFile enabled fun place bytes same => ?_, unread⟩
      rw [leads] at same
      exact noFile place bytes (Except.ok.inj same)

/-- A command starts with the variables that were there and those of one file. -/
theorem load_eq_ok {host host' : Host} {given : Option String} {chosen : Option Path}
    {w w' : World} (h : (load host given).on w = (.ok (host', chosen), w')) :
    ∃ asked' values, asked host given = .ok asked' ∧
      chosen = (candidates asked' host.current).find? (isThere w.files host.current) ∧
      Reads host w.files chosen values ∧ host'.current = host.current ∧
      ∀ name, host'.environment.get? name =
        (host.environment.get? name).or (values.lookup name).join := by
  rw [load_eq] at h
  obtain ⟨explicit, mid, found, ended⟩ := on_bind_eq_ok.mp h
  have files : mid.files = w.files := by
    obtain ⟨log, onlyLogs⟩ := findExplicit_onlyLogs host given w
    rw [found] at onlyLogs
    rw [show mid = _ from onlyLogs]
  obtain ⟨asked', isAsked, rfl⟩ := findExplicit_eq_ok found
  -- what is asked for comes before the two files of the directory
  obtain ⟨selected, isSelected, ended⟩ : ∃ selected : Option Path,
      selected = (candidates asked' host.current).find? (isThere w.files host.current) ∧
      ∃ started : World, started.files = w.files ∧
        (complete host selected).on started = (.ok (host', chosen), w') := by
    cases there : asked'.filter (isThere w.files host.current) with
    | some p =>
      rw [there] at ended
      obtain ⟨rfl, isThere⟩ := Option.filter_eq_some_iff.mp there
      exact ⟨some p, by simp [candidates, isThere], mid, files, ended⟩
    | none =>
      rw [there] at ended
      obtain ⟨selected, started, found, ended⟩ := on_bind_eq_ok.mp ended
      obtain ⟨rfl, rfl⟩ := findLocal_eq_ok found
      refine ⟨_, ?_, started, files, ended⟩
      rw [candidates, List.find?_append, files]
      cases asked' with
      | none => rfl
      | some p =>
        have away : isThere w.files host.current p = false := by simpa using there
        simp [away]
  obtain ⟨started, files, ended⟩ := ended
  cases selected with
  | none =>
    cases ended
    exact ⟨asked', [], isAsked, isSelected, .nothing, rfl, fun name => by simp⟩
  | some p =>
    obtain ⟨env, last, read, ended⟩ := on_bind_eq_ok.mp ended
    cases ended
    obtain ⟨values, reads, values_of⟩ := loadFile_eq_ok read
    rw [files] at reads
    exact ⟨asked', values, isAsked, isSelected, reads, rfl, values_of⟩

end Branchwork.Startup
