import Branchwork.Proofs.FileSystem.Named
import Branchwork.Proofs.Stage.Again
import Branchwork.Proofs.Stage.Splitter
import Branchwork.Proofs.Stage.Write
import Branchwork.Proofs.Value.Pathless

/-!
# Steps keep names proper

A step writes files under names that it takes from its value: the keys of a mapping, or a pair that a
document spells. As long as no value holds a path, these are texts, and the paths that texts spell have
proper names only.

So where a step starts from files with proper names and from a value without paths, that is what it
leaves and what it comes to, whatever it is put together from. The programs that captures start are
taken to keep names proper as well.

Main results:

* `Stage.keeps_run` — stages.
* `keeps_run` — steps.
-/

namespace Branchwork

open FileSystem

/-! ## Actions -/

namespace Action

variable {α β : Type} {P : α → Prop} {Q : β → Prop}

/-- An action that leaves names proper, and comes to what has a property. -/
def Keeps (P : α → Prop) (a : Action α) : Prop :=
  ∀ w, w.files.Named → (a.on w).2.files.Named ∧ ∀ x, (a.on w).1 = .ok x → P x

theorem Keeps.bind {a : Action α} {f : α → Action β} (first : Keeps P a)
    (rest : ∀ x, P x → Keeps Q (f x)) : Keeps Q (a >>= f) := by
  intro w named
  have here := first w named
  rw [on_bind]
  rcases ran : a.on w with ⟨fault | x, w'⟩
  · rw [ran] at here
    exact ⟨here.1, fun y h => by cases h⟩
  · rw [ran] at here
    exact rest x (here.2 x rfl) w' here.1

theorem keeps_pure {x : α} (holds : P x) : Keeps P (pure x) := by
  intro w named
  refine ⟨named, fun y h => ?_⟩
  cases h
  exact holds

theorem keeps_throw (fault : Fault) : Keeps P (throw fault : Action α) :=
  fun w named => ⟨named, fun x h => by cases h⟩

theorem keeps_ofExcept {ε : Type} {wrap : ε → Fault} {r : Except ε α}
    (holds : ∀ x, r = .ok x → P x) : Keeps P (ofExcept wrap r) := by
  cases r with
  | error e => exact keeps_throw (wrap e)
  | ok x => exact keeps_pure (holds x rfl)

theorem keeps_ofShape {r : Except ShapeProblem α} (holds : ∀ x, r = .ok x → P x) :
    Keeps P (ofShape r) := keeps_ofExcept holds

theorem keeps_files : Keeps Named files := by
  intro w named
  refine ⟨named, fun fs h => ?_⟩
  cases h
  exact named

theorem keeps_setFiles {fs : FileSystem} (named : fs.Named) : Keeps (fun _ => True) (setFiles fs) :=
  fun _ _ => ⟨named, fun _ _ => trivial⟩

theorem keeps_log (level : Level) (message : String) : Keeps (fun _ => True) (log level message) :=
  fun _ named => ⟨named, fun _ _ => trivial⟩

/-- An action that leaves the files as they are leaves names proper. -/
theorem keeps_of_reads {a : Action α} (only : FilesOnly a) (reads : Reads a) :
    Keeps (fun _ => True) a := by
  intro w named
  refine ⟨?_, fun _ _ => trivial⟩
  rw [(only.agree w).2, reads]
  exact named

/-- Something may come first, under a condition. -/
theorem Keeps.guarded {c : Prop} [Decidable c] {first : Action Unit} {rest : Action α}
    (h : Keeps (fun _ => True) first) (h' : Keeps P rest) :
    Keeps P (if c then first >>= fun _ => rest else rest) := by
  split
  · exact h.bind fun _ _ => h'
  · exact h'

end Action

open Action

/-! ## Files -/

namespace Stage

variable {scope : Scope}

/-- What is taken for granted of a scope: all names that it brings along are proper, and captures keep
names proper and come to values without paths. -/
structure Scope.Tidy (scope : Scope) : Prop where
  current : ∀ name ∈ scope.host.current, Path.IsName name
  workDir : scope.settings.workDir.Proper
  captures : ∀ address styled, Keeps Value.Pathless (scope.capture address styled)

theorem keeps_checkPath (p : Path) : Keeps (fun _ => True) (checkPath p) :=
  keeps_of_reads (filesOnly_checkPath p) (reads_checkPath p)

theorem keeps_readText (p : Path) : Keeps (fun _ => True) (scope.readText p) :=
  keeps_of_reads (filesOnly_readText scope p) (reads_readText p)

section

variable (tidy : scope.Tidy)
include tidy

/-- A value without paths names a proper path. -/
theorem Scope.Tidy.path {v : Value} (pathless : v.Pathless) {p : Path} (h : scope.path v = .ok p) :
    p.Proper := by
  cases pathless with
  | text s =>
    cases h
    exact scope.target_proper tidy.workDir s
  | _ => cases h

theorem keeps_ensureDirectories {p : Path} (proper : p.Proper) :
    Keeps (fun _ => True) (scope.ensureDirectories p) := by
  refine keeps_files.bind fun files named => ?_
  -- directories are made from the path upwards, so its names come in reverse
  have made := ensures scope.host.current p.anchor files p.parts.reverse
  have names : ∀ name ∈ p.parts.reverse, name = ".." ∨ Path.IsName name := fun name mem =>
    proper name (List.mem_reverse.mp mem)
  refine (keeps_setFiles (named.ensures tidy.current made names)).bind fun _ _ => ?_
  split
  · exact keeps_throw _
  · exact keeps_pure trivial

theorem keeps_writeBytes {p : Path} (proper : p.Proper) (bytes : List UInt8) :
    Keeps (fun _ => True) (scope.writeBytes p bytes) := by
  refine keeps_files.bind fun files named => ?_
  refine Keeps.bind (P := Named) (keeps_ofExcept fun g wrote => ?_) fun g named => keeps_setFiles named
  exact named.writeFile tidy.current proper wrote

theorem keeps_openFile {name : Value} (pathless : name.Pathless) :
    Keeps Path.Proper (scope.openFile name) := by
  refine Keeps.bind (P := Path.Proper) (keeps_ofShape fun p h => tidy.path pathless h) fun p proper => ?_
  refine (keeps_checkPath _).bind fun _ _ => ?_
  -- what is made on the way are the directories of a proper path
  refine (keeps_ensureDirectories tidy proper.parent).bind fun _ _ => ?_
  refine (keeps_checkPath _).bind fun _ _ => ?_
  exact (keeps_writeBytes tidy proper []).bind fun _ _ => keeps_pure proper

theorem keeps_store {name data : Value} (pathless : name.Pathless) :
    Keeps Value.Pathless (scope.store name data) := by
  have stored := filesFree_storedText data
  refine (keeps_openFile tidy pathless).bind fun p proper => ?_
  refine (keeps_of_reads (filesOnly_storedText data) stored.reads).bind fun text _ => ?_
  refine (keeps_writeBytes tidy proper _).bind fun _ _ => ?_
  exact (keeps_log _ _).bind fun _ _ => keeps_pure (.text _)

/-! ## Stages -/

theorem keeps_runToFile {v : Value} (pathless : v.Pathless) :
    Keeps Value.Pathless (runToFile scope v) := by
  unfold runToFile
  split
  -- a pair of a name and what to write, whether a tuple or read from a document as a list
  · cases pathless with
    | tuple each => exact keeps_store tidy (each _ (by simp))
  · cases pathless with
    | list each => exact keeps_store tidy (each _ (by simp))
  · exact keeps_throw _

end

/-- The events in a trace hold no paths. -/
theorem pathless_events {v : Value} (pathless : v.Pathless) {events : List Value}
    (h : events? v = some events) : ∀ event ∈ events, event.Pathless := by
  cases pathless with
  | list each =>
    cases h
    exact each
  | map keys values =>
    unfold events? at h
    dsimp only at h
    split at h
    · rename_i events' found
      cases h
      have entries : Mapping.Pathless _ := fun entry mem => ⟨keys entry mem, values entry mem⟩
      cases entries.get? found with
      | list each => exact each
    · cases h
  | _ => cases h

theorem keeps_runSplitter {v : Value} (pathless : v.Pathless) :
    Keeps Value.Pathless (runSplitter v) := by
  unfold runSplitter
  split
  · exact keeps_throw _
  · rename_i events found
    refine keeps_pure (Value.pathless_map_iff.mpr fun entry mem => ?_)
    obtain ⟨group, isGroup, rfl⟩ := List.mem_map.mp mem
    refine ⟨.text _, Value.pathless_map_iff.mpr fun inner mem => ?_⟩
    rw [List.mem_singleton.mp mem]
    exact ⟨.text _, .list fun event inside =>
      pathless_events pathless found event ((grouped_groupEvents events).mem isGroup inside)⟩

theorem pathless_renderAll {settings : Settings} {v : Value} {templates : List (String × String)}
    {entries : Mapping} (h : renderAll settings v templates = .ok entries) : entries.Pathless := by
  obtain ⟨rows, rfl⟩ := renderAll_texts h
  intro entry mem
  obtain ⟨row, -, rfl⟩ := List.mem_map.mp mem
  exact ⟨.text _, .text _⟩

theorem keeps_renderTemplates (settings : Settings) (v : Value)
    (templates : List (String × String)) :
    Keeps Value.Pathless (renderTemplates settings v templates) := by
  have renders : Keeps Value.Pathless (do
      return .map (← ofExcept .template (renderAll settings v templates))) := by
    refine Keeps.bind (P := Mapping.Pathless) (keeps_ofExcept fun entries => pathless_renderAll) ?_
    exact fun entries pathless => keeps_pure (Value.pathless_map_iff.mpr pathless)
  unfold renderTemplates
  dsimp only
  split
  · exact renders
  · exact (keeps_throw (P := fun _ => True) _).bind fun _ _ => renders

theorem keeps_runTemplate (scope : Scope) (v : Value) :
    Keeps Value.Pathless (runTemplate scope v) := by
  have looks : Reads (look scope.host.current
      (scope.settings.resolve scope.settings.templateDir)) := fun fs => by rw [over_look]
  refine (keeps_of_reads (filesOnly_look _ _) looks).bind fun found? _ => ?_
  split
  · refine keeps_files.bind fun files _ => ?_
    refine (keeps_of_reads (filesOnly_readTemplates _ _ _ _) (reads_readTemplates _ _ _)).bind ?_
    exact fun templates _ => keeps_renderTemplates _ v templates
  · exact keeps_throw _

theorem keeps_runConsole (v : Value) : Keeps Value.Pathless (runConsole v) := by
  have shows : ∀ entries, Keeps (fun _ => True) (showEntries entries) := fun entries =>
    keeps_of_reads (filesOnly_showEntries entries) (filesFree_showEntries entries).reads
  have prints : ∀ text, Keeps (fun _ => True) (print text) := fun text =>
    keeps_of_reads (filesOnly_print text) (filesFree_print text).reads
  have serializes : Keeps (fun _ => True) (serialize v) :=
    keeps_of_reads (filesOnly_serialize v) (filesFree_serialize v).reads
  unfold runConsole
  split
  · exact (shows _).bind fun _ _ => keeps_pure .null
  · exact serializes.bind fun text _ => (prints text).bind fun _ _ => keeps_pure .null

theorem keeps_ofJson (text : String) : Keeps Value.Pathless (ofJson text) :=
  keeps_ofExcept fun _ => Json.pathless_read

theorem keeps_run (tidy : scope.Tidy) {v : Value} (pathless : v.Pathless) (s : Stage) :
    Keeps Value.Pathless (s.run scope v) := by
  have path : Keeps (fun _ => True) (ofShape (scope.path v)) := keeps_ofShape fun _ _ => trivial
  cases s with
  | taggedConsoleOutput => exact keeps_runConsole v
  | fileToString =>
    exact path.bind fun p _ => (keeps_readText p).bind fun text _ => keeps_pure (.text text)
  | fileToJson => exact path.bind fun p _ => (keeps_readText p).bind fun text _ => keeps_ofJson text
  | toFile => exact keeps_runToFile tidy pathless
  | telemetrySave => exact tidy.captures v true
  | telemetrySaveNoStyle => exact tidy.captures v false
  | nullFilter => exact keeps_pure pathless
  | toJsonString =>
    have writes : Keeps (fun _ => True) (toJson v) := keeps_ofExcept fun _ _ => trivial
    exact writes.bind fun text _ => keeps_pure (.text text)
  | fromJsonString =>
    cases v with
    | text s => exact keeps_ofJson s
    | _ => exact keeps_throw _
  | tracePidSplitter => exact keeps_runSplitter pathless
  | template => exact keeps_runTemplate scope v

end Stage

/-! ## Captures -/

/-- What is taken for granted of a host: its current directory is reached by proper names, and programs
that it starts keep names proper. -/
structure Host.Tidy (host : Host) : Prop where
  current : ∀ name ∈ host.current, Path.IsName name
  start : ∀ {launch fs result g}, fs.Named → host.start launch fs = .ok (result, g) → g.Named

namespace Capture

theorem pathless_valueOf {address output : String} {v : Value}
    (h : valueOf address output = .ok v) : v.Pathless := by
  unfold valueOf at h
  split at h
  · rename_i read
    cases h
    exact Json.pathless_read read
  · split at h <;> cases h

/-- A capture keeps names proper if the program that it starts does. -/
theorem keeps_device {host : Host} (tidy : host.Tidy) (s : Settings) (address : Value)
    (styled : Bool) :
    Keeps Value.Pathless (device host s address styled) := by
  cases address with
  | text address =>
    unfold device
    dsimp only
    split
    · exact keeps_throw _
    · exact keeps_throw _
    · refine keeps_files.bind fun files named => ?_
      split
      · exact keeps_throw _
      · rename_i result g started
        refine (keeps_setFiles (tidy.start named started)).bind fun _ _ => ?_
        have output : Keeps (fun _ => True) (outputOf s result) := by
          unfold outputOf
          dsimp only
          refine .guarded (keeps_throw _) (.guarded (keeps_log _ _) (.guarded (keeps_throw _) ?_))
          exact keeps_ofExcept fun _ _ => trivial
        exact output.bind fun text _ => keeps_ofExcept fun _ => pathless_valueOf
  | _ => exact keeps_throw _

end Capture

/-! ## Steps -/

theorem Mapping.keeps_mapValues {action : Value → Action Value}
    (each : ∀ v, v.Pathless → Keeps Value.Pathless (action v)) {entries : Mapping}
    (pathless : entries.Pathless) : Keeps Mapping.Pathless (entries.mapValues action) := by
  induction entries with
  | nil => exact keeps_pure pathless
  | cons entry rest ih =>
    obtain ⟨key, v⟩ := entry
    obtain ⟨keyPathless, valuePathless⟩ := pathless _ List.mem_cons_self
    refine (each v valuePathless).bind fun v' here => ?_
    refine (ih fun entry mem => pathless entry (List.mem_cons_of_mem _ mem)).bind fun more others => ?_
    refine keeps_pure fun entry mem => ?_
    rcases List.mem_cons.mp mem with rfl | mem
    · exact ⟨keyPathless, here⟩
    · exact others entry mem

theorem keeps_mapItems {action : Value → Action Value}
    (each : ∀ v, v.Pathless → Keeps Value.Pathless (action v)) {items : List Value}
    (pathless : ∀ v ∈ items, v.Pathless) :
    Keeps (fun items => ∀ v ∈ items, v.Pathless) (mapItems action items) := by
  induction items with
  | nil => exact keeps_pure pathless
  | cons v rest ih =>
    refine (each v (pathless v List.mem_cons_self)).bind fun v' here => ?_
    refine (ih fun v mem => pathless v (List.mem_cons_of_mem _ mem)).bind fun more others => ?_
    refine keeps_pure fun x mem => ?_
    rcases List.mem_cons.mp mem with rfl | mem
    · exact here
    · exact others x mem

theorem Stage.keeps_findFiles (scope : Stage.Scope) (pattern : String) :
    Keeps (fun _ => True) (scope.findFiles pattern) :=
  keeps_of_reads (filesOnly_findFiles scope pattern) (reads_findFiles pattern)

namespace Step

variable {scope : Stage.Scope}

/-- The entries of a value without paths. -/
theorem keeps_entries {v : Value} (pathless : v.Pathless) :
    Keeps Mapping.Pathless (ofShape v.entries) := keeps_ofShape fun _ => pathless.entries

theorem keeps_members {v : Value} (pathless : v.Pathless) :
    Keeps (fun items => ∀ x ∈ items, x.Pathless) (ofShape v.members) :=
  keeps_ofShape fun _ => pathless.members

/-- A step without a path in any of its constants. -/
inductive Plain : Step → Prop
  | const {v} : v.Pathless → Plain (.const v)
  | listify : Plain .listify
  | asKeys : Plain .asKeys
  | fileNames {pattern} : Plain (.fileNames pattern)
  | duplicate : Plain .duplicate
  | onRight {step} : Plain step → Plain (.onRight step)
  | left : Plain .left
  | rename {pattern target} : Plain (.rename pattern target)
  | onValues {step} : Plain step → Plain (.onValues step)
  | joinKeys : Plain .joinKeys
  | pairs : Plain .pairs
  | onEach {step} : Plain step → Plain (.onEach step)
  | chain {name steps} : (∀ step ∈ steps, Plain step) → Plain (.chain name steps)
  | stage {s} : Plain (.stage s)

/-- What every step keeps is kept by all of them in order. -/
theorem keeps_runAll {steps : List Step}
    (each : ∀ step ∈ steps, ∀ v : Value, v.Pathless → Keeps Value.Pathless (step.run scope v))
    {v : Value} (pathless : v.Pathless) : Keeps Value.Pathless (runAll scope steps v) := by
  induction steps generalizing v with
  | nil =>
    rw [runAll]
    exact keeps_pure pathless
  | cons step rest ih =>
    rw [runAll]
    refine (each step List.mem_cons_self v pathless).bind fun v here => ?_
    exact ih (fun step mem => each step (List.mem_cons_of_mem _ mem)) here

/-- A step leaves names proper, and comes to a value without paths. -/
theorem keeps_run (tidy : scope.Tidy) {step : Step} (plain : step.Plain) {v : Value}
    (pathless : v.Pathless) : Keeps Value.Pathless (step.run scope v) := by
  -- along the step: its combinators pass on parts of values without paths
  induction plain generalizing v with
  | const constant =>
    rw [run]
    exact keeps_pure constant
  | listify =>
    rw [run]
    exact keeps_pure (.list fun x mem => List.mem_singleton.mp mem ▸ pathless)
  | asKeys =>
    rw [run]
    refine (keeps_members pathless).bind fun names each => ?_
    refine Keeps.bind (P := Mapping.Pathless) (keeps_ofShape fun _ => Mapping.pathless_ofKeys each) ?_
    exact fun entries keys => keeps_pure (Value.pathless_map_iff.mpr keys)
  | fileNames =>
    rw [run]
    refine (Stage.keeps_findFiles scope _).bind fun names _ => keeps_pure (.list ?_)
    intro x mem
    obtain ⟨name, -, rfl⟩ := List.mem_map.mp mem
    exact .text name
  | duplicate =>
    rw [run]
    refine keeps_pure (.tuple fun x mem => ?_)
    rcases List.mem_pair.mp mem with rfl | rfl <;> exact pathless
  | onRight _ ih =>
    rw [run]
    refine Keeps.bind (P := fun pair => pair.1.Pathless ∧ pair.2.Pathless)
      (keeps_ofShape fun _ => pathless.pair) fun pair each => ?_
    refine (ih each.2).bind fun r here => keeps_pure (.tuple fun x mem => ?_)
    rcases List.mem_pair.mp mem with rfl | rfl
    · exact each.1
    · exact here
  | left =>
    rw [run]
    exact keeps_ofShape fun _ => pathless.first
  | rename =>
    rw [run]
    refine (keeps_entries pathless).bind fun entries each => ?_
    refine Keeps.bind (P := Mapping.Pathless) (keeps_ofExcept fun _ => Mapping.pathless_rename each) ?_
    exact fun named each => keeps_pure (Value.pathless_map_iff.mpr each)
  | onValues _ ih =>
    rw [run]
    refine (keeps_entries pathless).bind fun entries each => ?_
    refine (Mapping.keeps_mapValues (fun _ => ih) each).bind fun mapped each => ?_
    exact keeps_pure (Value.pathless_map_iff.mpr each)
  | joinKeys =>
    rw [run]
    refine (keeps_entries pathless).bind fun entries each => ?_
    exact keeps_pure (Value.pathless_map_iff.mpr (Mapping.pathless_joinKeys each))
  | pairs =>
    rw [run]
    refine (keeps_entries pathless).bind fun entries each => keeps_pure (.list fun x mem => ?_)
    obtain ⟨entry, isEntry, rfl⟩ := List.mem_map.mp mem
    refine .tuple fun x mem => ?_
    rcases List.mem_pair.mp mem with rfl | rfl
    · exact (each entry isEntry).1
    · exact (each entry isEntry).2
  | onEach _ ih =>
    rw [run]
    refine (keeps_members pathless).bind fun items each => ?_
    exact (keeps_mapItems (fun _ => ih) each).bind fun mapped each => keeps_pure (.list each)
  | chain _ ih =>
    rw [run]
    exact keeps_runAll (fun step mem v pathless => ih step mem pathless) pathless
  | stage =>
    rw [run]
    exact Stage.keeps_run tidy pathless _

end Step

end Branchwork
