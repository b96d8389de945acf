import Branchwork.Proofs.FileSystem.View
import Branchwork.Proofs.Stage.Again
import Branchwork.Proofs.Stage.Outcome

/-!
# What the stages look at

A stage that reads or writes a file looks at the places along its path, and a stage that renders
templates at the directory of the templates and the files in it. The devices start programs, which may
look at anything; what a program does is known to its author only. All other stages look at nothing.

`Within` says that an action looks at nothing outside a view. It is kept by every way to put actions
together, so that a stage has it as soon as its paths are in the view.

Main results:

* `within_run` — a stage looks at nothing but what `Looks` says.
-/

namespace Branchwork

open FileSystem

/-- Two worlds with files that a view does not tell apart, in which the same captures were asked
for. -/
structure World.Alike (view : View) (w u : World) : Prop where
  files : FileSystem.Alike view w.files u.files
  captures : w.captures = u.captures

theorem World.Alike.symm {view : View} {w u : World} (alike : World.Alike view w u) :
    World.Alike view u w := ⟨alike.files.symm, alike.captures.symm⟩

theorem World.Alike.trans {view : View} {w u t : World} (first : World.Alike view w u)
    (second : World.Alike view u t) : World.Alike view w t :=
  ⟨first.files.trans second.files, first.captures.trans second.captures⟩

namespace Action

variable {α β : Type} {view : View}

/-- An action that looks at no files outside a view: in worlds that are alike it comes to the same and
leaves worlds that are alike. -/
def Within (view : View) (a : Action α) : Prop :=
  ∀ w u : World, World.Alike view w u →
    (a.on w).1 = (a.on u).1 ∧ World.Alike view (a.on w).2 (a.on u).2

theorem within_of_over {a : Action α} (only : FilesOnly a)
    (h : ∀ fs g, Alike view fs g →
      (a.over fs).1 = (a.over g).1 ∧ Alike view (a.over fs).2 (a.over g).2) : Within view a := by
  intro w u alike
  obtain ⟨result, files⟩ := only.agree w
  obtain ⟨result', files'⟩ := only.agree u
  obtain ⟨same, behind⟩ := h _ _ alike.files
  rw [result, result']
  refine ⟨same, ?_, ?_⟩
  · rwa [files, files']
  · rw [(only.kept w).1, (only.kept u).1, alike.captures]

theorem FilesFree.within {a : Action α} (free : FilesFree a) (only : FilesOnly a) :
    Within view a := by
  obtain ⟨result, same⟩ := free
  refine within_of_over only fun fs g alike => ?_
  rw [same, same]
  exact ⟨rfl, alike⟩

theorem within_pure (x : α) : Within view (pure x : Action α) :=
  (filesFree_pure x).within (filesOnly_pure x)

theorem within_throw (fault : Fault) : Within view (throw fault : Action α) :=
  (filesFree_throw fault).within (filesOnly_throw fault)

theorem within_ofExcept {ε : Type} (wrap : ε → Fault) (x : Except ε α) :
    Within view (ofExcept wrap x) :=
  (filesFree_ofExcept wrap x).within (filesOnly_ofExcept wrap x)

theorem Within.bind {a : Action α} {f : α → Action β} (first : Within view a)
    (rest : ∀ x w w', a.on w = (.ok x, w') → Within view (f x)) : Within view (a >>= f) := by
  intro w u alike
  obtain ⟨same, behind⟩ := first w u alike
  rw [on_bind, on_bind]
  rcases ran : a.on w with ⟨fault | x, w'⟩ <;> rcases ran' : a.on u with ⟨fault' | x', u'⟩ <;>
    rw [ran, ran'] at same behind
  · cases same
    exact ⟨rfl, behind⟩
  · cases same
  · cases same
  · cases same
    exact rest x w w' ran w' u' behind

end Action

/-- Values that are looked at one after the other. -/
theorem Mapping.within_mapValues {view : View} {action : Value → Action Value} {entries : Mapping}
    (each : ∀ entry ∈ entries, (action entry.2).Within view) :
    (entries.mapValues action).Within view := by
  induction entries with
  | nil => exact Action.within_pure []
  | cons entry rest ih =>
    refine (each entry List.mem_cons_self).bind fun v _ _ _ => ?_
    refine Action.Within.bind (ih fun entry mem => each entry (List.mem_cons_of_mem _ mem)) ?_
    exact fun more _ _ _ => Action.within_pure _

namespace Stage

open Action

variable {scope : Scope} {view : View} {p : Path}

/-! ## Files -/

theorem within_checkPath (p : Path) : Within view (checkPath p) :=
  (filesFree_checkPath p).within (filesOnly_checkPath p)

theorem readText_alike {fs g : FileSystem}
    (same : fs.readFile scope.host.current p = g.readFile scope.host.current p) :
    ((scope.readText p).over fs).1 = ((scope.readText p).over g).1 := by
  obtain ⟨checked, checks⟩ := filesFree_checkPath p
  rw [readText_over, readText_over, checks, checks]
  cases checked with
  | error fault => rfl
  | ok _ =>
    dsimp only
    rw [same]

theorem within_readText (sees : Sees view scope.host.current p) :
    Within view (scope.readText p) := by
  refine within_of_over (filesOnly_readText scope p) fun fs g alike => ?_
  rw [reads_readText p fs, reads_readText p g]
  exact ⟨readText_alike (alike.readFile sees), alike⟩

theorem within_ensureDirectories (sees : Sees view scope.host.current p) :
    Within view (scope.ensureDirectories p) := by
  refine within_of_over (filesOnly_ensureDirectories scope p) fun fs g alike => ?_
  obtain ⟨fault?, fs', first⟩ : ∃ fault? fs',
      Ensures scope.host.current p.anchor fs p.parts.reverse fault? fs' := ⟨_, _, ensures _ _ _ _⟩
  have path : upward p.anchor p.parts.reverse = p := by
    unfold upward
    rw [List.reverse_reverse]
  rw [← path] at sees
  obtain ⟨g', second, alike'⟩ := alike.ensures sees first
  rw [ensureDirectories_over p first, ensureDirectories_over p second]
  cases fault? <;> exact ⟨rfl, alike'⟩

theorem within_writeBytes (sees : Sees view scope.host.current p) (bytes : List UInt8) :
    Within view (scope.writeBytes p bytes) := by
  refine within_of_over (filesOnly_writeBytes scope p bytes) fun fs g alike => ?_
  rw [writeBytes_over, writeBytes_over]
  rcases alike.writeFile sees bytes with ⟨fault, refused, refused'⟩ | ⟨fs', g', wrote, wrote', alike'⟩
  · rw [refused, refused']
    exact ⟨rfl, alike⟩
  · rw [wrote, wrote']
    exact ⟨rfl, alike'⟩

theorem within_openFile {name : Value}
    (sees : ∀ p, scope.path name = .ok p → Sees view scope.host.current p) :
    Within view (scope.openFile name) := by
  refine (within_ofExcept .shape (scope.path name)).bind fun p _ _ isPath => ?_
  obtain ⟨isPath, -⟩ := on_ofExcept_eq_ok.mp isPath
  have sees := sees p isPath
  refine (within_checkPath _).bind fun _ _ _ _ => ?_
  refine (within_ensureDirectories sees.parent).bind fun _ _ _ _ => ?_
  refine (within_checkPath p).bind fun _ _ _ _ => ?_
  exact (within_writeBytes sees []).bind fun _ _ _ _ => within_pure p

theorem within_runToFile {v : Value}
    (sees : ∀ name data p, pairOf? v = some (name, data) → scope.path name = .ok p →
      Sees view scope.host.current p) : Within view (runToFile scope v) := by
  rw [runToFile_eq]
  cases pair : pairOf? v with
  | none => exact within_throw _
  | some members =>
    obtain ⟨name, data⟩ := members
    have sees := fun p => sees name data p pair
    refine (within_openFile sees).bind fun p _ _ opened => ?_
    have sees := sees p (openFile_eq_ok opened).1
    refine ((filesFree_storedText data).within (filesOnly_storedText data)).bind fun text _ _ _ => ?_
    refine (within_writeBytes sees _).bind fun _ _ _ _ => ?_
    refine Within.bind ?_ fun _ _ _ _ => within_pure _
    exact (filesFree_log _ _).within (filesOnly_log _ _)

/-! ## Templates -/

theorem mem_fileNames {fs : FileSystem} {place : Location} {name : String} :
    name ∈ fileNames fs place ↔ ∃ bytes, fs.get? (place ++ [name]) = some (.file bytes) := by
  have split : name ∈ fileNames fs place ↔
      name ∈ fs.children place ∧ isFile fs (place ++ [name]) = true := by
    unfold fileNames
    rw [List.mem_mergeSort]
    exact List.mem_filter
  rw [split, isFile_eq_true, and_iff_right_iff_imp]
  rintro ⟨bytes, file⟩
  rw [mem_children_iff, mem_places_iff (by simp), file]
  rfl

/-- Where the files of a directory are seen, they are the same files. -/
theorem fileNames_alike {fs g : FileSystem} (alike : Alike view fs g) {place : Location}
    (seen : ∀ name, view (place ++ [name]) ≠ .nothing) : fileNames fs place = fileNames g place := by
  have ascending : ∀ {fs : FileSystem}, fs.places.Nodup → (fileNames fs place).Pairwise (· < ·) :=
    fun once => ascending_mergeSort ((nodup_children once place).filter _)
  refine eq_of_ascending (ascending alike.once) (ascending alike.once') fun name => ?_
  rw [mem_fileNames, mem_fileNames]
  exact exists_congr (alike.file_iff (seen name))

section

variable {fs g : FileSystem} (alike : Alike view fs g) {directory : Path} {place : Location}
  (sees : SeesFiles view scope.host.current directory)
  (leads : fs.follow scope.host.current directory = .ok place)
include alike sees leads

theorem readFile_alike_below {name : String} (mem : name ∈ fileNames fs place) :
    fs.readFile scope.host.current (directory.below [name]) =
      g.readFile scope.host.current (directory.below [name]) := by
  by_cases back : name = ".."
  · rw [back]
    exact alike.readFile sees.back
  · have sees_directory : Sees view scope.host.current directory := sees.back.above
    have leads' := leads
    rw [alike.follow sees_directory] at leads'
    -- the directory is seen whole, and the file in it as a file, which it is
    have there := alike.get? (sees_directory.last leads)
    obtain ⟨bytes, file⟩ := mem_fileNames.mp mem
    have file' := (alike.file_iff (sees.files place (last_of_follow leads) name) bytes).mp file
    have same : fs.stat scope.host.current (directory.below [name]) =
        g.stat scope.host.current (directory.below [name]) := by
      by_cases short : (directory.below [name]).text.utf8ByteSize < pathLimit
      · have steps : fs.locate place [name] = g.locate place [name] := by
          rw [locate, locate, there]
          rfl
        unfold stat
        rw [follow_below leads short, follow_below leads' short, ← steps]
        cases found : fs.locate place [name] with
        | error reason => rfl
        | ok found' =>
          rw [locate_forth found (by simpa using Ne.symm back)]
          dsimp only
          rw [file, file']
      · unfold stat follow
        rw [if_pos (Nat.le_of_not_lt short), if_pos (Nat.le_of_not_lt short)]
    unfold readFile
    rw [same]

theorem readTemplates_alike {names : List String} (files : ∀ name ∈ names, name ∈ fileNames fs place)
    (read : List (String × String)) :
    ((scope.readTemplates directory read names).over fs).1 =
      ((scope.readTemplates directory read names).over g).1 := by
  induction names generalizing read with
  | nil => rfl
  | cons name rest ih =>
    have only := fun text => filesOnly_readTemplates scope directory
      (putTemplate (directory.below [name]).stem text read) rest
    have first : scope.readTemplates directory read (name :: rest) =
        scope.readText (directory.below [name]) >>= fun text => scope.readTemplates directory
          (putTemplate (directory.below [name]).stem text read) rest := rfl
    -- reading leaves the files as they are, so the other templates are read from the same two
    rw [first, over_bind _ only, over_bind _ only, (reads_readText _).over_eq fs,
      (reads_readText _).over_eq g,
      readText_alike (readFile_alike_below alike sees leads (files name List.mem_cons_self))]
    cases ((scope.readText (directory.below [name])).over g).1 with
    | error fault => rfl
    | ok text => exact ih (fun other mem => files other (List.mem_cons_of_mem _ mem)) _

end

theorem within_runTemplate {v : Value} (sees : SeesFiles view scope.host.current
    (scope.settings.resolve scope.settings.templateDir)) : Within view (runTemplate scope v) := by
  refine within_of_over (filesOnly_runTemplate scope v) fun fs g alike => ?_
  have sees_directory := sees.back.above
  refine ⟨?_, by rwa [reads_runTemplate, reads_runTemplate]⟩
  rw [runTemplate_over, runTemplate_over, ← alike.look sees_directory]
  rcases look : fs.look scope.host.current (scope.settings.resolve scope.settings.templateDir) with
    fault | _ | ⟨place, _ | _⟩
  · rfl
  · rfl
  · rfl
  · -- the same names are read as the same texts, and rendering looks at no files
    dsimp only
    obtain ⟨leads, -⟩ := look_eq_some.mp look
    rw [← fileNames_alike alike (sees.files place (last_of_follow leads)),
      over_bind _ (filesOnly_renderTemplates _ _), over_bind _ (filesOnly_renderTemplates _ _),
      (reads_readTemplates _ _ _).over_eq fs, (reads_readTemplates _ _ _).over_eq g,
      readTemplates_alike alike sees leads (fun _ mem => mem)]
    cases ((scope.readTemplates (scope.settings.resolve scope.settings.templateDir) []
        (fileNames fs place)).over g).1 with
    | error fault => rfl
    | ok templates =>
      obtain ⟨result, renders⟩ := filesFree_renderTemplates scope.settings v templates
      dsimp only
      rw [renders, renders]

/-! ## Stages -/

/-- What a stage looks at to turn a value into another is in view. -/
def Looks (scope : Scope) (view : View) (v : Value) : Stage → Prop
  | .fileToString | .fileToJson => ∀ p, scope.path v = .ok p → Sees view scope.host.current p
  | .toFile => ∀ name data p, pairOf? v = some (name, data) → scope.path name = .ok p →
      Sees view scope.host.current p
  | .telemetrySave => Within view (scope.capture v true)
  | .telemetrySaveNoStyle => Within view (scope.capture v false)
  | .template =>
      SeesFiles view scope.host.current (scope.settings.resolve scope.settings.templateDir)
  | _ => True

/-- A stage comes to the same over files that are alike in what it looks at. -/
theorem within_run {v : Value} {s : Stage} (looks : s.Looks scope view v) :
    Within view (s.run scope v) := by
  cases s with
  | taggedConsoleOutput => exact (filesFree_runConsole v).within (filesOnly_runConsole v)
  | fileToString =>
    refine (within_ofExcept .shape (scope.path v)).bind fun p _ _ isPath => ?_
    have sees := looks p (on_ofExcept_eq_ok.mp isPath).1
    exact (within_readText sees).bind fun text _ _ _ => within_pure _
  | fileToJson =>
    refine (within_ofExcept .shape (scope.path v)).bind fun p _ _ isPath => ?_
    have sees := looks p (on_ofExcept_eq_ok.mp isPath).1
    exact (within_readText sees).bind fun text _ _ _ => within_ofExcept _ _
  | toFile => exact within_runToFile looks
  | telemetrySave => exact looks
  | telemetrySaveNoStyle => exact looks
  | nullFilter => exact within_pure v
  | toJsonString => exact (within_ofExcept _ _).bind fun text _ _ _ => within_pure _
  | fromJsonString =>
    cases v with
    | text s => exact within_ofExcept _ _
    | _ => exact within_throw _
  | tracePidSplitter => exact (filesFree_runSplitter v).within (filesOnly_runSplitter v)
  | template => exact within_runTemplate looks

end Stage

end Branchwork
