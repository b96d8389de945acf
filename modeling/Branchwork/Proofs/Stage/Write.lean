import Branchwork.Proofs.FileSystem.Directories
import Branchwork.Proofs.Step.FilesOnly

/-!
# Writing files again

What becomes of a file that is written: `Opens` says it of the empty file that is made first,
`Stores` of the text in it, and `Writes` of entry after entry of a mapping.

Writes that were made once leave nothing to do: made again over files that have only grown since,
they give the same files and fail where they failed before. A failure is for the same cause then,
but for a directory that was refused; see `Ensures.refused_again`.

Main results:

* `Writes.grown`, `Writes.sound` — what writes change.
* `Writes.again` — writes that are made again.
-/

namespace Branchwork

open Action FileSystem

/-- Two refusals on the way to one file, or one and the same cause. -/
def Fault.Alike (fault fault' : Fault) : Prop :=
  fault' = fault ∨ ∃ (p : Path) (a b : FileSystem.Fault), fault = .files a ∧ fault' = .files b ∧
    (∃ parts, parts <+: p.parts ∧ a.path = (⟨p.anchor, parts⟩ : Path).text) ∧
    (∃ parts, parts <+: p.parts ∧ b.path = (⟨p.anchor, parts⟩ : Path).text) ∧
    (".." ∉ p.parts → b.reason = a.reason)

theorem Fault.Alike.refl (fault : Fault) : fault.Alike fault := .inl rfl

namespace Stage

variable {scope : Scope}

/-! ## Opening a file -/

/-- The path of the file under a name. -/
def Scope.target (scope : Scope) (name : String) : Path := scope.settings.resolve (.ofText name)

/-- What becomes of a file that is opened: the place of the empty file, or why there is none, and the
files behind. -/
inductive Opens (scope : Scope) (name : String) (fs : FileSystem) :
    Except Fault Location → FileSystem → Prop
  | parentName {fault} : (checkPath (scope.target name).parent).over fs = (.error fault, fs) →
      Opens scope name fs (.error fault) fs
  | directory {fault g} : (checkPath (scope.target name).parent).over fs = (.ok (), fs) →
      Ensures scope.host.current (scope.target name).anchor fs
        (scope.target name).parent.parts.reverse (some fault) g →
      Opens scope name fs (.error (.files fault)) g
  | name {fault g} : (checkPath (scope.target name).parent).over fs = (.ok (), fs) →
      Ensures scope.host.current (scope.target name).anchor fs
        (scope.target name).parent.parts.reverse none g →
      (checkPath (scope.target name)).over g = (.error fault, g) →
      Opens scope name fs (.error fault) g
  | refused {fault g} : (checkPath (scope.target name).parent).over fs = (.ok (), fs) →
      Ensures scope.host.current (scope.target name).anchor fs
        (scope.target name).parent.parts.reverse none g →
      (checkPath (scope.target name)).over g = (.ok (), g) →
      (∀ bytes, g.writeFile scope.host.current (scope.target name) bytes = .error fault) →
      Opens scope name fs (.error (.files fault)) g
  | opened {place g} : (checkPath (scope.target name).parent).over fs = (.ok (), fs) →
      Ensures scope.host.current (scope.target name).anchor fs
        (scope.target name).parent.parts.reverse none g →
      (checkPath (scope.target name)).over g = (.ok (), g) →
      g.follow scope.host.current (scope.target name) = .ok place →
      g.get? place ≠ some .directory →
      Opens scope name fs (.ok place) (g.put place (.file []))

theorem ensureDirectories_over (p : Path) {fs g : FileSystem} {fault? : Option FileSystem.Fault}
    (h : Ensures scope.host.current p.anchor fs p.parts.reverse fault? g) :
    (scope.ensureDirectories p).over fs =
      (match fault? with | some fault => .error (.files fault) | none => .ok (), g) := by
  have same : fs.ensureDirectories scope.host.current p = (fault?, g) := h.eq
  unfold Scope.ensureDirectories
  rw [over_bind _ fun files => ?_]
  · rw [over_files]
    dsimp only
    rw [same]
    cases fault? <;> rfl
  · dsimp only
    refine (filesOnly_setFiles _).bind fun _ => ?_
    split
    · exact filesOnly_throw _
    · exact filesOnly_pure _

theorem ensureDirectories_refused {p : Path} {fs g : FileSystem} {fault : FileSystem.Fault}
    (h : Ensures scope.host.current p.anchor fs p.parts.reverse (some fault) g) :
    (scope.ensureDirectories p).over fs = (.error (.files fault), g) := ensureDirectories_over p h

theorem ensureDirectories_made {p : Path} {fs g : FileSystem}
    (h : Ensures scope.host.current p.anchor fs p.parts.reverse none g) :
    (scope.ensureDirectories p).over fs = (.ok (), g) := ensureDirectories_over p h

theorem writeBytes_over (p : Path) (bytes : List UInt8) (fs : FileSystem) :
    (scope.writeBytes p bytes).over fs = match fs.writeFile scope.host.current p bytes with
      | .ok g => (.ok (), g)
      | .error fault => (.error (.files fault), fs) := by
  unfold Scope.writeBytes
  rw [over_bind _ fun files => ?_]
  · rw [over_files]
    dsimp only
    rw [over_bind _ fun files => filesOnly_setFiles files, over_ofExcept]
    cases fs.writeFile scope.host.current p bytes <;> rfl
  · exact (filesOnly_ofExcept _ _).bind fun files => filesOnly_setFiles _

/-- The cases tell what opening a file comes to. -/
theorem Opens.over_eq {name : String} {fs g : FileSystem} {result : Except Fault Location}
    (h : Opens scope name fs result g) :
    (scope.openFile (.text name)).over fs = (result.map fun _ => scope.target name, g) := by
  -- the rest behind every step sees nothing but the files
  have writes : ∀ _ : Unit, FilesOnly (do
      scope.writeBytes (scope.target name) []
      return scope.target name) := fun _ =>
    (filesOnly_writeBytes _ _ _).bind fun _ => filesOnly_pure _
  have checks : ∀ _ : Unit, FilesOnly (do
      checkPath (scope.target name)
      scope.writeBytes (scope.target name) []
      return scope.target name) := fun _ => (filesOnly_checkPath _).bind writes
  have ensures : ∀ _ : Unit, FilesOnly (do
      scope.ensureDirectories (scope.target name).parent
      checkPath (scope.target name)
      scope.writeBytes (scope.target name) []
      return scope.target name) := fun _ => (filesOnly_ensureDirectories _ _).bind checks
  have opening : scope.openFile (.text name) = (do
      checkPath (scope.target name).parent
      scope.ensureDirectories (scope.target name).parent
      checkPath (scope.target name)
      scope.writeBytes (scope.target name) []
      return scope.target name) := pure_bind (scope.target name) _
  rw [opening]
  -- the cases are those of the steps that stop, and of the end
  cases h with
  | parentName fails => exact over_bind_error ensures fails
  | directory parent refused =>
    rw [over_bind_ok ensures parent]
    exact over_bind_error checks (ensureDirectories_refused refused)
  | name parent made fails =>
    rw [over_bind_ok ensures parent, over_bind_ok checks (ensureDirectories_made made)]
    exact over_bind_error writes fails
  | @refused fault _ parent made fine fails =>
    have refuses : (scope.writeBytes (scope.target name) []).over g = (.error (.files fault), g) := by
      rw [writeBytes_over, fails]
    rw [over_bind_ok ensures parent, over_bind_ok checks (ensureDirectories_made made),
      over_bind_ok writes fine]
    exact over_bind_error (fun _ => filesOnly_pure _) refuses
  | @opened place mid parent made fine leads free =>
    have empties : (scope.writeBytes (scope.target name) []).over mid =
        (.ok (), mid.put place (.file [])) := by
      rw [writeBytes_over, writeFile_of_follow leads free]
    rw [over_bind_ok ensures parent, over_bind_ok checks (ensureDirectories_made made),
      over_bind_ok writes fine, over_bind_ok (fun _ => filesOnly_pure _) empties]
    rfl

theorem opens (scope : Scope) (name : String) (fs : FileSystem) :
    ∃ result g, Opens scope name fs result g := by
  obtain ⟨parent, checksParent⟩ := filesFree_checkPath (scope.target name).parent
  obtain ⟨whole, checks⟩ := filesFree_checkPath (scope.target name)
  cases parent with
  | error fault => exact ⟨_, _, .parentName (checksParent fs)⟩
  | ok _ =>
    have made := ensures scope.host.current (scope.target name).anchor fs
      (scope.target name).parent.parts.reverse
    generalize (fs.ensureDirectoriesFrom _ _ _).2 = mid at made
    cases refused : (fs.ensureDirectoriesFrom _ _ _).1 with
    | some fault =>
      rw [refused] at made
      exact ⟨_, _, .directory (checksParent fs) made⟩
    | none =>
      rw [refused] at made
      cases whole with
      | error fault => exact ⟨_, _, .name (checksParent fs) made (checks mid)⟩
      | ok _ =>
        rcases writeFile_cases mid scope.host.current (scope.target name) with
          ⟨fault, fails⟩ | ⟨place, leads, free⟩
        · exact ⟨_, _, .refused (checksParent fs) made (checks mid) fails⟩
        · exact ⟨_, _, .opened (checksParent fs) made (checks mid) leads free⟩

/-! ## What opening a file changes -/

theorem Opens.grown {name : String} {fs g : FileSystem} {result : Except Fault Location}
    (h : Opens scope name fs result g) : Grown result.toOption.toList fs g := by
  cases h with
  | parentName => exact .refl _ _
  | directory _ refused => exact refused.grown
  | name _ made _ | refused _ made _ _ => exact made.grown
  | opened _ made _ _ free =>
    exact (made.grown.mono (List.nil_subset _)).trans (grown_put_file free [])

theorem Scope.target_proper (proper : scope.settings.workDir.Proper) (name : String) :
    (scope.target name).Proper := proper.join (Path.proper_ofText name)

theorem Opens.sound {name : String} {fs g : FileSystem} {result : Except Fault Location}
    (h : Opens scope name fs result g) (sound : fs.Sound)
    (here : fs.get? scope.host.current = some .directory)
    (proper : scope.settings.workDir.Proper) : g.Sound := by
  have target := scope.target_proper proper name
  have names : ∀ n ∈ (scope.target name).parent.parts.reverse, n = ".." ∨ Path.IsName n :=
    fun n mem => target.parent n (List.mem_reverse.mp mem)
  cases h with
  | parentName => exact sound
  | directory _ made | name _ made _ | refused _ made _ _ => exact made.sound sound here names
  | opened _ made _ leads free =>
    have mid := made.sound sound here names
    exact mid.put (mid.room (made.grown.directory here) target leads free) _

theorem Opens.file {name : String} {fs g : FileSystem} {place : Location}
    (h : Opens scope name fs (.ok place) g) : place ≠ [] ∧ g.get? place = some (.file []) := by
  cases h with
  | opened _ _ _ _ free =>
    have ne := ne_root_of_free free
    exact ⟨ne, get?_put_self _ ne _⟩

theorem Opens.leads {name : String} {fs g : FileSystem} {place : Location}
    (h : Opens scope name fs (.ok place) g) :
    g.follow scope.host.current (scope.target name) = .ok place := by
  cases h with
  | opened _ _ _ leads free => exact (grown_put_file free []).follow leads

/-! ## Opening a file again -/

theorem checkPath_over {p : Path} {fs g : FileSystem} {result : Except Fault Unit}
    (h : (checkPath p).over fs = (result, fs)) : (checkPath p).over g = (result, g) :=
  (filesFree_checkPath p).over_eq h g

/-- A file that was opened is opened again, whatever has been added. -/
theorem Opens.again {name : String} {fs g later : FileSystem} {place : Location}
    (h : Opens scope name fs (.ok place) g) (kept : Kept g later) :
    Opens scope name later (.ok place) (later.put place (.file [])) := by
  obtain ⟨-, file⟩ := h.file
  have leads := kept.follow h.leads
  cases h with
  | opened parent made fine _ free =>
    have mid := (grown_put_file free []).toKept.trans kept
    refine .opened (checkPath_over parent) (made.again mid) (checkPath_over fine) leads ?_
    obtain ⟨bytes, file⟩ := kept.file file
    simp [file]

/-- What could not be opened cannot be opened again, and nothing more is made on the way. -/
theorem Opens.refused_again {name : String} {fs g later : FileSystem} {fault : Fault}
    (h : Opens scope name fs (.error fault) g) (sound : fs.Sound)
    (here : fs.get? scope.host.current = some .directory) (kept : Kept g later) :
    ∃ fault', Opens scope name later (.error fault') later ∧ fault.Alike fault' := by
  cases h with
  | parentName fails => exact ⟨fault, .parentName (checkPath_over fails), .refl fault⟩
  | name parent made fails =>
    exact ⟨fault, .name (checkPath_over parent) (made.again kept) (checkPath_over fails),
      .refl fault⟩
  | @refused fault _ parent made fine fails =>
    refine ⟨.files fault, .refused (checkPath_over parent) (made.again kept)
      (checkPath_over fine) fun bytes => ?_, .refl _⟩
    exact kept.writeFile_eq_error (made.follow_path_ne_missing here) (fails bytes)
  | @directory fault _ parent refused =>
    obtain ⟨fault', again, sameReason⟩ := refused.refused_again here kept
    refine ⟨.files fault', .directory (checkPath_over parent) again,
      .inr ⟨(scope.target name).parent, fault, fault', rfl, rfl, ?_, ?_, fun forth => ?_⟩⟩
    · obtain ⟨parts, onWay, path⟩ := refused.fault_path
      exact ⟨parts, by simpa [upward] using onWay, path⟩
    · obtain ⟨parts, onWay, path⟩ := again.fault_path
      exact ⟨parts, by simpa [upward] using onWay, path⟩
    · exact sameReason sound fun mem => forth (List.mem_reverse.mp mem)

/-! ## Storing a text -/

/-- What becomes of a value that is written to a file: the result, the files behind, and the place,
if a file was opened. -/
inductive Stores (scope : Scope) (name : String) (data : Value) (fs : FileSystem) :
    Except Fault Value → FileSystem → List Location → Prop
  | refused {fault g} : Opens scope name fs (.error fault) g →
      Stores scope name data fs (.error fault) g []
  | unwritable {place fault g} : Opens scope name fs (.ok place) g →
      (storedText data).over g = (.error fault, g) →
      Stores scope name data fs (.error fault) g [place]
  | stored {place text g} : Opens scope name fs (.ok place) g →
      (storedText data).over g = (.ok text, g) →
      Stores scope name data fs (.ok (.text name)) (g.put place (.file (Utf8.encode text))) [place]

theorem filesFree_storedText (data : Value) : FilesFree (storedText data) := by
  refine FilesFree.bind (fun text => ?_) (filesFree_serialize data) fun text => ?checks
  case checks =>
    cases Text.unstorable? text with
    | some found => exact ⟨.error (.halves found), fun _ => rfl⟩
    | none => exact filesFree_pure text
  dsimp only
  split
  · exact (filesOnly_throw _).bind fun _ => filesOnly_pure _
  · exact filesOnly_pure _

/-- The cases tell what storing a value comes to. -/
theorem Stores.over_eq {name : String} {data : Value} {fs g : FileSystem}
    {result : Except Fault Value} {places : List Location}
    (h : Stores scope name data fs result g places) :
    (scope.store (.text name) data).over fs = (result, g) := by
  -- behind the opening, the text is made, then written, then a message is logged
  have logs : ∀ _ : Unit, FilesOnly (do
      Action.log .info s!"written results into \"{(Value.text name).plain}\"."
      return Value.text (Value.text name).plain) := fun _ =>
    (filesOnly_log _ _).bind fun _ => filesOnly_pure _
  have writes : ∀ p text, FilesOnly (do
      scope.writeBytes p (Utf8.encode text)
      Action.log .info s!"written results into \"{(Value.text name).plain}\"."
      return Value.text (Value.text name).plain) := fun _ _ =>
    (filesOnly_writeBytes _ _ _).bind logs
  have stores : ∀ p, FilesOnly (do
      let text ← storedText data
      scope.writeBytes p (Utf8.encode text)
      Action.log .info s!"written results into \"{(Value.text name).plain}\"."
      return Value.text (Value.text name).plain) := fun p =>
    (filesOnly_storedText _).bind (writes p)
  unfold Scope.store
  cases h with
  | refused refused => exact over_bind_error stores refused.over_eq
  | unwritable opened fails =>
    rw [over_bind_ok stores opened.over_eq]
    exact over_bind_error (writes _) fails
  | @stored place text mid opened stored =>
    have free : mid.get? place ≠ some .directory := by simp [opened.file.2]
    have fills : (scope.writeBytes (scope.target name) (Utf8.encode text)).over mid =
        (.ok (), mid.put place (.file (Utf8.encode text))) := by
      rw [writeBytes_over, writeFile_of_follow opened.leads free]
    rw [over_bind_ok stores opened.over_eq, over_bind_ok (writes _) stored, over_bind_ok logs fills]
    rfl

theorem exists_stores (scope : Scope) (name : String) (data : Value) (fs : FileSystem) :
    ∃ result g places, Stores scope name data fs result g places := by
  obtain ⟨opened, g, opens⟩ := opens scope name fs
  cases opened with
  | error fault => exact ⟨_, _, _, .refused opens⟩
  | ok place =>
    obtain ⟨result, stored⟩ := filesFree_storedText data
    cases result with
    | error fault => exact ⟨_, _, _, .unwritable opens (stored g)⟩
    | ok text => exact ⟨_, _, _, .stored opens (stored g)⟩

theorem Stores.grown {name : String} {data : Value} {fs g : FileSystem}
    {result : Except Fault Value} {places : List Location}
    (h : Stores scope name data fs result g places) : Grown places fs g := by
  cases h with
  | refused refused => exact refused.grown
  | unwritable opened _ => exact opened.grown
  | stored opened _ => exact opened.grown.trans (grown_put_file (by simp [opened.file.2]) _)

theorem Stores.sound {name : String} {data : Value} {fs g : FileSystem}
    {result : Except Fault Value} {places : List Location}
    (h : Stores scope name data fs result g places) (sound : fs.Sound)
    (here : fs.get? scope.host.current = some .directory)
    (proper : scope.settings.workDir.Proper) : g.Sound := by
  cases h with
  | refused refused => exact refused.sound sound here proper
  | unwritable opened _ => exact opened.sound sound here proper
  | stored opened _ =>
    have mid := opened.sound sound here proper
    refine mid.put (mid.room (opened.grown.directory here) (scope.target_proper proper name)
      opened.leads ?_) _
    simp [opened.file.2]

theorem Stores.file {name : String} {data : Value} {fs g : FileSystem}
    {result : Except Fault Value} {places : List Location}
    (h : Stores scope name data fs result g places) :
    ∀ place ∈ places, ∃ bytes, g.get? place = some (.file bytes) := by
  intro place mem
  cases h with
  | refused => cases mem
  | unwritable opened _ =>
    rw [List.mem_singleton.mp mem]
    exact ⟨[], opened.file.2⟩
  | stored opened _ =>
    rw [List.mem_singleton.mp mem]
    exact ⟨_, get?_put_self _ opened.file.1 _⟩

/-- A value that was stored is stored again in the same place, whatever has been added. -/
theorem Stores.again {name : String} {data v : Value} {fs g later : FileSystem}
    {places : List Location} (h : Stores scope name data fs (.ok v) g places) (kept : Kept g later) :
    ∃ later', Stores scope name data later (.ok v) later' places ∧
      Rewritten places g later later' := by
  cases h with
  | @stored place text mid opened stored =>
    obtain ⟨ne, file⟩ := opened.file
    have mid_kept := (grown_put_file (show mid.get? place ≠ some .directory by simp [file])
      (Utf8.encode text)).toKept.trans kept
    have again := Stores.stored (opened.again mid_kept) ((filesFree_storedText data).over_eq stored _)
    rw [put_put] at again
    exact ⟨_, again, rewritten_put (get?_put_self mid ne _) kept⟩

/-- A value that could not be stored cannot be stored again. -/
theorem Stores.refused_again {name : String} {data : Value} {fs g later : FileSystem}
    {fault : Fault} {places : List Location}
    (h : Stores scope name data fs (.error fault) g places) (sound : fs.Sound)
    (here : fs.get? scope.host.current = some .directory) (kept : Kept g later) :
    ∃ fault' later', Stores scope name data later (.error fault') later' places ∧
      fault.Alike fault' ∧ Rewritten places g later later' := by
  cases h with
  | refused refused =>
    obtain ⟨fault', again, alike⟩ := refused.refused_again sound here kept
    exact ⟨fault', later, .refused again, alike, .refl g later⟩
  | unwritable opened fails =>
    have still := (filesFree_storedText data).over_eq fails
    refine ⟨fault, _, .unwritable (opened.again kept) (still _), .refl fault, ?_⟩
    exact rewritten_put opened.file.2 kept

/-! ## Entry after entry -/

/-- What becomes of the entries of a mapping that are written to files one after the other: the
fault, if there is one, the files behind, and the places that were written. -/
inductive Writes (scope : Scope) :
    Mapping → FileSystem → Option Fault → FileSystem → List Location → Prop
  | done {fs} : Writes scope [] fs none fs []
  | stopped {name v rest fs fault g places} :
      Stores scope name v fs (.error fault) g places →
      Writes scope ((.text name, v) :: rest) fs (some fault) g places
  | next {name v rest fs stored g places fault? h more} :
      Stores scope name v fs (.ok stored) g places → Writes scope rest g fault? h more →
      Writes scope ((.text name, v) :: rest) fs fault? h (places ++ more)

theorem Writes.grown {entries : Mapping} {fs g : FileSystem} {fault? : Option Fault}
    {places : List Location} (h : Writes scope entries fs fault? g places) : Grown places fs g := by
  induction h with
  | done => exact .refl _ _
  | stopped failed => exact failed.grown
  | next stored _ ih =>
    exact (stored.grown.mono (List.subset_append_left _ _)).trans
      (ih.mono (List.subset_append_right _ _))

theorem Writes.sound {entries : Mapping} {fs g : FileSystem} {fault? : Option Fault}
    {places : List Location} (h : Writes scope entries fs fault? g places) (sound : fs.Sound)
    (here : fs.get? scope.host.current = some .directory)
    (proper : scope.settings.workDir.Proper) : g.Sound := by
  induction h with
  | done => exact sound
  | stopped failed => exact failed.sound sound here proper
  | next stored _ ih => exact ih (stored.sound sound here proper) (stored.grown.directory here)

/-- Writes that are made again, over files that have only grown since. -/
theorem Writes.again {entries : Mapping} {fs g later : FileSystem} {fault? : Option Fault}
    {places : List Location} (h : Writes scope entries fs fault? g places) (sound : fs.Sound)
    (here : fs.get? scope.host.current = some .directory)
    (proper : scope.settings.workDir.Proper) (kept : Kept g later) :
    ∃ fault?' later', Writes scope entries later fault?' later' places ∧
      Option.Rel Fault.Alike fault? fault?' ∧ Rewritten places g later later' := by
  induction h generalizing later with
  | done => exact ⟨none, later, .done, .none, .refl _ later⟩
  | stopped failed =>
    obtain ⟨fault', later', again, alike, rewritten⟩ := failed.refused_again sound here kept
    exact ⟨some fault', later', .stopped again, .some alike, rewritten⟩
  | next stored rest ih =>
    obtain ⟨mid, again, rewritten⟩ := stored.again (rest.grown.toKept.trans kept)
    -- the rest is written again over the files that the first entry has left as they were
    obtain ⟨fault?', later', further, alike, rewritten'⟩ :=
      ih (stored.sound sound here proper) (stored.grown.directory here)
        (kept.trans rewritten.shape.forth)
    exact ⟨fault?', later', .next again further, alike,
      rewritten.append rewritten' stored.file rest.grown⟩

/-- The step that writes every pair of a list. -/
theorem Writes.mapItems_over {entries : Mapping} {fs g : FileSystem} {fault? : Option Fault}
    {places : List Location} (h : Writes scope entries fs fault? g places) :
    ∃ items, (mapItems (Step.run scope (.stage .toFile))
        (entries.map fun (key, v) => .tuple [key, v])).over fs =
      (fault?.elim (.ok items) .error, g) := by
  have only : ∀ v, FilesOnly (Step.run scope (.stage .toFile) v) := by
    intro v
    rw [Step.run]
    exact filesOnly_runToFile scope v
  have pair : ∀ name v, Step.run scope (.stage .toFile) (.tuple [.text name, v]) =
      scope.store (.text name) v := by
    intro name v
    rw [Step.run]
    rfl
  have others : ∀ (items : List Value) (v : Value), FilesOnly (do
      let more ← mapItems (Step.run scope (.stage .toFile)) items
      return v :: more) := fun items v =>
    (filesOnly_mapItems only items).bind fun more => filesOnly_pure _
  -- the pairs are written in order, up to the first one that fails
  induction h with
  | done => exact ⟨[], rfl⟩
  | stopped failed =>
    have first := failed.over_eq
    rw [← pair] at first
    exact ⟨[], over_bind_error (others _) first⟩
  | @next name v rest fs stored g places fault? h more stores _ ih =>
    obtain ⟨items, further⟩ := ih
    have first := stores.over_eq
    rw [← pair] at first
    refine ⟨stored :: items, (over_bind_ok (others _) first).trans ?_⟩
    cases fault? with
    | some fault => exact over_bind_error (fun more => filesOnly_pure _) further
    | none => exact over_bind_ok (fun more => filesOnly_pure _) further

end Stage

end Branchwork
