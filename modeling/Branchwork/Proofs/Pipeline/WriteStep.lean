import Branchwork.Proofs.Step.Texts
import Branchwork.Proofs.Walk.Run
import Branchwork.Proofs.Walk.Steps

/-!
# What a step that writes leaves behind

A mapping is written under the output names of its keys, key after key. The names are different texts,
or nothing is written at all. But a file stands at the place that the path of its name leads to, and
different names may lead to one place (`out.1` and `out.1/` do, or `a.txt` and `../w/a.txt`): what was
written there first is written over.

So a place holds the value of the last key that leads to it, and a value is lost exactly if a later one
that reads differently is written to its place. Where no path leads back by `..`, places are told apart
by the paths alone.

Main results:

* `Stage.Writes.exists_files` — what entry after entry leaves in its file.
* `writing_keeps_last` — what a step that writes leaves behind.
-/

namespace Branchwork

open Action FileSystem

namespace Stage

variable {scope : Scope}

/-! ## Files behind a list of writes -/

/-- A text that can be stored is what its value is written as. -/
theorem serialize_of_storedText {v : Value} {text : String} {fs g : FileSystem}
    (h : (storedText v).over fs = (.ok text, g)) (w : World) :
    (serialize v).on w = (.ok text, w) := by
  -- what a value is written as does not depend on the world
  obtain ⟨result, same⟩ : ∃ result, ∀ w, (serialize v).on w = (result, w) := by
    unfold serialize
    split
    · exact ⟨_, fun _ => rfl⟩
    · exact ⟨_, on_ofExcept _ _⟩
  have ran : ((storedText v).on (.start fs)).1 = .ok text := congrArg Prod.fst h
  unfold storedText at ran
  rw [on_bind, same] at ran
  cases result with
  | error fault => cases ran
  | ok written =>
    dsimp only at ran
    cases halves : Text.unstorable? written with
    | some found =>
      rw [halves] at ran
      cases ran
    | none =>
      rw [halves] at ran
      cases ran
      exact same w

/-- Where a value was written: the place that the path of its name leads to, and the text that it is
written as. -/
def WrittenTo (scope : Scope) (g : FileSystem) (name : String) (v : Value)
    (file : Location × String) : Prop :=
  g.follow scope.host.current (scope.target name) = .ok file.1 ∧
    ∀ w, (serialize v).on w = (.ok file.2, w)

/-- Every value has its place, and each place holds the text that was written there last. -/
theorem Writes.exists_files {named : List (String × Value)} {fs g : FileSystem}
    {places : List Location}
    (h : Writes scope (Mapping.ofTexts named) fs none g places) :
    ∃ files : List (Location × String), files.map (·.1) = places ∧
      List.Forall₂ (fun entry file => WrittenTo scope g entry.1 entry.2 file) named files ∧
      ∀ place text, files.reverse.lookup place = some text →
        g.get? place = some (.file (Utf8.encode text)) := by
  -- on the entries: what is written later counts where it goes to the same place
  induction named generalizing fs places with
  | nil =>
    cases h
    exact ⟨[], rfl, .nil, fun place text found => by cases found⟩
  | cons entry rest ih =>
    obtain ⟨name, v⟩ := entry
    cases h with
    | @next _ _ _ _ _ mid _ _ _ more stores writes =>
      obtain ⟨files, same, each, last⟩ := ih writes
      cases stores with
      | @stored place text opening opened stored =>
        obtain ⟨ne, file⟩ := opened.file
        -- the path leads to the place when the file is opened, and later writes leave it so
        have put : (opening.put place (.file (Utf8.encode text))).get? place =
            some (.file (Utf8.encode text)) := get?_put_self _ ne _
        have leads := writes.grown.toKept.follow
          ((grown_put_file (show opening.get? place ≠ some .directory by simp [file]) _).follow
            opened.leads)
        refine ⟨(place, text) :: files, by rw [List.map_cons, same]; rfl,
          .cons ⟨leads, serialize_of_storedText stored⟩ each, ?_⟩
        intro other written found
        rw [List.reverse_cons, List.lookup_append] at found
        cases later : files.reverse.lookup other with
        | some _ =>
          rw [later] at found
          cases found
          exact last _ _ later
        | none =>
          -- nothing that was written later has touched the place
          rw [later, Option.none_or, lookup_cons_if] at found
          split at found
          · rename_i here
            cases found
            have untouched : place ∉ more := by
              rw [← same, ← here]
              exact lookup_reverse_eq_none_iff.mp later
            rw [here]
            exact (writes.grown.apart place untouched _).mpr put
          · cases found

end Stage

namespace Pipeline

open Experiment Stage

/-! ## Steps that write -/

/-- The steps that write a mapping under a target, at the end of a pipeline or on the way. -/
inductive Writing (input : Input) (target : String) : List Step → Prop
  | sink {steps} : writeSteps .builtIn input target = .ok steps → Writing input target steps
  | materialize {step} : materializeStep .builtIn input target = .ok step →
      Writing input target [step]

/-- Steps that write have no use for a device. -/
theorem Writing.device {input : Input} {target : String} {steps : List Step}
    (writing : Writing input target steps) (scope : Scope) (v : Value) :
    Step.runAll scope steps v = Step.runAll { scope with device := none } steps v := by
  -- the two sides differ in the scope of `toFile` alone, which asks for no device
  cases writing with
  | sink built =>
    cases built
    simp only [Step.runAll, Step.run]
    rfl
  | materialize built =>
    cases built
    simp only [List.map_cons, List.map_nil, List.cons_append, List.nil_append, Step.runAll, Step.run]
    rfl

theorem onFiles_of_device_none (scope : Scope) : ({ scope with device := none } : Scope).OnFiles :=
  fun _ _ => Capture.filesOnly_device _ _ _ _

/-- What steps that write do is what writing does. -/
theorem Writing.over {input : Input} {target : String} {steps : List Step}
    (writing : Writing input target steps) {scope : Scope} (onFiles : scope.OnFiles)
    (entries : Mapping) (fs : FileSystem) :
    ∃ v, (Step.runAll scope steps (.map entries)).over fs =
      ((Walk.write scope input target entries fs).fault?.elim (.ok v) .error,
        (Walk.write scope input target entries fs).files) := by
  cases writing with
  | sink built =>
    cases built
    exact Walk.writeSteps_over onFiles input target entries fs
  | materialize built =>
    obtain ⟨step, built', ran⟩ := Walk.materializeStep_over onFiles input target
    rw [built] at built'
    cases built'
    exact ⟨.map entries, by rw [runAll_single_over onFiles, ran]⟩

/-- A step that writes gives its keys different names, and every value is written to the file of its
name. -/
theorem Writing.exists_writes {input : Input} {target : String} {steps : List Step}
    (writing : Writing input target steps) {scope : Scope} {entries : List (String × Value)}
    {w w' : World} {v : Value}
    (ran : (Step.runAll scope steps (.map (Mapping.ofTexts entries))).on w = (.ok v, w')) :
    (entries.map fun entry => Pattern.outputName input.pattern entry.1 target).Nodup ∧
      ∃ places, Writes { scope with device := none } (Mapping.ofTexts (entries.map fun entry =>
        (Pattern.outputName input.pattern entry.1 target, entry.2))) w.files none w'.files places := by
  have onFiles := onFiles_of_device_none scope
  rw [writing.device] at ran
  obtain ⟨_, comes⟩ := writing.over onFiles (Mapping.ofTexts entries) w.files
  -- the step succeeds over the files alone as well
  obtain ⟨log, shown, same⟩ := (Step.filesOnly_runAll onFiles steps _).on_eq w
  rw [same, comes] at ran
  rcases Walk.write_cases { scope with device := none } input target (Mapping.ofTexts entries) with
    ⟨fault, -, refused⟩ | ⟨named, renamed, writes, whole⟩
  · rw [refused] at ran
    cases ran
  · obtain ⟨fault?, g, places, writes⟩ := writes w.files
    rw [whole, Walk.writeEach_eq writes] at ran
    cases fault? with
    | some fault => cases ran
    | none =>
      cases ran
      obtain ⟨rfl, distinct, -⟩ := Mapping.renameFrom_ofTexts renamed
      exact ⟨distinct, places, writes⟩

/-- A step that writes gives every value a place, leaves in each place what was written there last, and
writes to no other place. -/
theorem Writing.exists_files {input : Input} {target : String} {steps : List Step}
    (writing : Writing input target steps) {scope : Scope} {entries : List (String × Value)}
    {w w' : World} {v : Value}
    (ran : (Step.runAll scope steps (.map (Mapping.ofTexts entries))).on w = (.ok v, w')) :
    (entries.map fun entry => Pattern.outputName input.pattern entry.1 target).Nodup ∧
      ∃ files : List (Location × String),
        List.Forall₂ (fun entry file => WrittenTo scope w'.files
          (Pattern.outputName input.pattern entry.1 target) entry.2 file) entries files ∧
        (∀ place text, files.reverse.lookup place = some text →
          w'.files.get? place = some (.file (Utf8.encode text))) ∧
        Grown (files.map (·.1)) w.files w'.files := by
  obtain ⟨distinct, places, writes⟩ := writing.exists_writes ran
  obtain ⟨files, rfl, each, last⟩ := Writes.exists_files writes
  exact ⟨distinct, files, List.forall₂_map_left_iff.mp each, last, writes.grown⟩

/-- Every place is found again, with what was written there last. -/
theorem exists_last {files : List (Location × String)} {file : Location × String}
    (mem : file ∈ files) :
    ∃ text, files.reverse.lookup file.1 = some text ∧ (file.1, text) ∈ files := by
  have there : (files.reverse.lookup file.1).isSome :=
    (lookup_reverse_isSome_iff files file.1).mpr (List.mem_map_of_mem mem)
  obtain ⟨text, found⟩ := Option.isSome_iff_exists.mp there
  obtain ⟨before, after, split, -⟩ := List.lookup_eq_some_iff.mp found
  refine ⟨text, found, ?_⟩
  rw [← List.mem_reverse, split]
  simp

/-- What a step that writes leaves behind. The output names are different texts; each leads to a place,
and the place holds what was written there last. So every value is found again under its name if and
only if no two of them are written to one place as different texts. -/
theorem writing_keeps_last {input : Input} {target : String} {steps : List Step}
    (writing : Writing input target steps) {scope : Scope} {entries : List (String × Value)}
    {w w' : World} {v : Value}
    (ran : (Step.runAll scope steps (.map (Mapping.ofTexts entries))).on w = (.ok v, w')) :
    (entries.map fun entry => Pattern.outputName input.pattern entry.1 target).Nodup ∧
      ∃ files : List (Location × String),
        List.Forall₂ (fun entry file => WrittenTo scope w'.files
          (Pattern.outputName input.pattern entry.1 target) entry.2 file) entries files ∧
        (∀ place text, files.reverse.lookup place = some text →
          w'.files.get? place = some (.file (Utf8.encode text))) ∧
        ((∀ file ∈ files, w'.files.get? file.1 = some (.file (Utf8.encode file.2))) ↔
          ∀ a ∈ files, ∀ b ∈ files, a.1 = b.1 → Utf8.encode a.2 = Utf8.encode b.2) := by
  obtain ⟨distinct, files, each, last, -⟩ := writing.exists_files ran
  refine ⟨distinct, files, each, last, fun holds a memA b memB place => ?_,
    fun agree file mem => ?_⟩
  · -- one place holds one text
    have there := holds a memA
    rw [place, holds b memB] at there
    exact (Entry.file.inj (Option.some.inj there)).symm
  · -- the last value written to the place reads like this one
    obtain ⟨text, found, winner⟩ := exists_last mem
    rw [agree file mem _ winner rfl]
    exact last _ _ found

/-- An input whose values are split. -/
def splitInput : Input := ⟨"t.json", .file, "t.json"⟩

/-- Two values split from it, whose names lead to one place. -/
def splitEntries : List (String × Value) := [("t.json.1", .text "1"), ("t.json.1/", .text "2")]

/-- The steps that write them. -/
def splitSteps : List Step := [.rename "t.json" "out", .pairs, .onEach (.stage .toFile)]

theorem exists_of_ok {α : Type} {x : Except Fault α × World} {P : World → Prop}
    (h : x.1.toOption.isSome ∧ P x.2) : ∃ v w, x = (.ok v, w) ∧ P w := by
  obtain ⟨_ | v, w⟩ := x
  · cases h.1
  · exact ⟨v, w, rfl, h.2⟩

theorem split_keeps_last :
    Writing splitInput "out" splitSteps ∧ ∃ v w',
      (Step.runAll Walk.bareScope splitSteps (.map (Mapping.ofTexts splitEntries))).on
        (.start ⟨[]⟩) = (.ok v, w') ∧
      (splitEntries.map fun entry => Pattern.outputName "t.json" entry.1 "out").Nodup ∧
      w'.files.get? ["out.1"] = some (.file (Utf8.encode "2")) := by
  have writing : Writing splitInput "out" splitSteps := .sink rfl
  obtain ⟨v, w', ran, holds⟩ := exists_of_ok (P := fun w =>
    w.files.get? ["out.1"] = some (.file (Utf8.encode "2"))) (x :=
      (Step.runAll Walk.bareScope splitSteps (.map (Mapping.ofTexts splitEntries))).on
        (.start ⟨[]⟩)) (by decide +kernel)
  exact ⟨writing, v, w', ran, (writing_keeps_last writing ran).1, holds⟩

/-! ## Paths that do not lead back -/

/-- The place that a path spells, if it does not lead back. -/
def spelt (current : Location) (p : Path) : Location := base current p ++ p.parts

theorem follow_eq_spelt {fs : FileSystem} {current place : Location} {p : Path}
    (leads : fs.follow current p = .ok place) (forth : ".." ∉ p.parts) :
    place = spelt current p := by
  rw [follow_of_short (short_of_follow leads)] at leads
  exact locate_forth leads forth

/-- Where no path leads back and no two paths spell one place, every file holds the value of its
key. -/
theorem writing_keeps_all {input : Input} {target : String} {steps : List Step}
    (writing : Writing input target steps) {scope : Scope} {entries : List (String × Value)}
    {w w' : World} {v : Value}
    (ran : (Step.runAll scope steps (.map (Mapping.ofTexts entries))).on w = (.ok v, w'))
    {path : String → Path}
    (paths : ∀ key, path key = scope.target (Pattern.outputName input.pattern key target))
    (forth : ∀ entry ∈ entries, ".." ∉ (path entry.1).parts)
    (apart : (entries.map fun entry => spelt scope.host.current (path entry.1)).Nodup) :
    ∀ entry ∈ entries, ∃ text, (∀ w, (serialize entry.2).on w = (.ok text, w)) ∧
      w'.files.readFile scope.host.current (path entry.1) = .ok (Utf8.encode text) := by
  obtain ⟨-, files, each, last, -⟩ := writing.exists_files ran
  -- the places are those that the paths spell, so no place was written twice
  have places : files.map (·.1) =
      entries.map fun entry => spelt scope.host.current (path entry.1) := by
    clear last apart ran
    induction each with
    | nil => rfl
    | cons first _ ih =>
      rw [List.map_cons, List.map_cons, ih fun entry mem => forth entry (List.mem_cons_of_mem _ mem)]
      have leads := first.1
      rw [← paths] at leads
      rw [follow_eq_spelt leads (forth _ List.mem_cons_self)]
  have once : (files.reverse.map (·.1)).Nodup := by
    rw [List.map_reverse, places, List.Nodup, List.pairwise_reverse]
    exact List.Pairwise.imp Ne.symm apart
  intro entry mem
  obtain ⟨file, written, leads, text⟩ := exists_of_forall₂ each mem
  refine ⟨file.2, text, ?_⟩
  rw [← paths] at leads
  refine readFile_eq_ok.mpr ⟨file.1, leads, last _ _ ?_⟩
  exact (lookup_eq_some_iff once).mpr (List.mem_reverse.mpr written)

end Pipeline

end Branchwork
