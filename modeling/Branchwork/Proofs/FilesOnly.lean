import Branchwork.Proofs.Action

/-!
# Actions on files

Most actions read the files of a world and change them, and beside that only log and show. What such
an action comes to can be said without the rest of the world: `Action.over` runs it over files alone.

The property is kept by every way to put actions together, so that a stage or a step has it as soon
as its parts have it.
-/

namespace Branchwork

/-- What an action comes to over files, and the files behind it. -/
def Action.over {α : Type} (a : Action α) (fs : FileSystem) : Except Fault α × FileSystem :=
  ((a.on (.start fs)).1, (a.on (.start fs)).2.files)

namespace Action

variable {α β : Type}

theorem on_of_over {a : Action α} {fs fs' : FileSystem} {result : Except Fault α}
    (h : a.over fs = (result, fs')) : ∃ w, a.on (.start fs) = (result, w) ∧ w.files = fs' := by
  cases h
  exact ⟨_, rfl, rfl⟩

/-- An action that sees nothing of the world but its files, and beside them changes the log and the
console only. -/
structure FilesOnly (a : Action α) : Prop where
  agree : ∀ w, (a.on w).1 = (a.over w.files).1 ∧ (a.on w).2.files = (a.over w.files).2
  kept : ∀ w, (a.on w).2.captures = w.captures ∧ (a.on w).2.notices = w.notices

/-- What an action on files comes to in a world. -/
theorem FilesOnly.on_eq {a : Action α} (h : FilesOnly a) (w : World) :
    ∃ log shown, a.on w =
      ((a.over w.files).1, ⟨(a.over w.files).2, log, shown, w.captures, w.notices⟩) := by
  refine ⟨(a.on w).2.log, (a.on w).2.shown, ?_⟩
  obtain ⟨same, sameFiles⟩ := h.agree w
  obtain ⟨captures, notices⟩ := h.kept w
  rw [← same, ← sameFiles, ← captures, ← notices]

/-! ## Equations -/

@[simp] theorem over_pure (x : α) (fs : FileSystem) : (pure x : Action α).over fs = (.ok x, fs) :=
  rfl

@[simp] theorem over_throw (fault : Fault) (fs : FileSystem) :
    (throw fault : Action α).over fs = (.error fault, fs) := rfl

@[simp] theorem over_files (fs : FileSystem) : files.over fs = (.ok fs, fs) := rfl

@[simp] theorem over_setFiles (fs new : FileSystem) : (setFiles new).over fs = (.ok (), new) := rfl

@[simp] theorem over_log (level : Level) (message : String) (fs : FileSystem) :
    (log level message).over fs = (.ok (), fs) := rfl

@[simp] theorem over_print (text : String) (fs : FileSystem) :
    (print text).over fs = (.ok (), fs) := rfl

@[simp] theorem over_ofExcept {ε : Type} (wrap : ε → Fault) (x : Except ε α) (fs : FileSystem) :
    (ofExcept wrap x).over fs = (x.mapError wrap, fs) := by
  rw [Action.over, on_ofExcept]
  rfl

@[simp] theorem over_look (current : Location) (p : Path) (fs : FileSystem) :
    (look current p).over fs = ((fs.look current p).mapError .files, fs) := by
  rw [Action.over, on_look]
  rfl

/-- An action on files goes on over the files behind its first part, unless that part fails. -/
theorem over_bind (a : Action α) {f : α → Action β} (rest : ∀ x, FilesOnly (f x))
    (fs : FileSystem) :
    (a >>= f).over fs = match a.over fs with
      | (.ok x, fs) => (f x).over fs
      | (.error fault, fs) => (.error fault, fs) := by
  simp only [Action.over, on_bind]
  rcases a.on (.start fs) with ⟨result, w⟩
  cases result with
  | error fault => rfl
  | ok x =>
    obtain ⟨same, sameFiles⟩ := (rest x).agree w
    exact Prod.ext same sameFiles

theorem over_bind_ok {a : Action α} {f : α → Action β} (rest : ∀ x, FilesOnly (f x))
    {fs fs' : FileSystem} {x : α} (ran : a.over fs = (.ok x, fs')) :
    (a >>= f).over fs = (f x).over fs' := by
  rw [over_bind a rest, ran]

theorem over_bind_error {a : Action α} {f : α → Action β} (rest : ∀ x, FilesOnly (f x))
    {fs fs' : FileSystem} {fault : Fault} (failed : a.over fs = (.error fault, fs')) :
    (a >>= f).over fs = (.error fault, fs') := by
  rw [over_bind a rest, failed]

theorem over_map (a : Action α) (f : α → β) (fs : FileSystem) :
    (f <$> a).over fs = ((a.over fs).1.map f, (a.over fs).2) := by
  rw [Action.over, on_map]
  rfl

/-! ## Putting actions together -/

theorem filesOnly_pure (x : α) : FilesOnly (pure x) := ⟨fun _ => ⟨rfl, rfl⟩, fun _ => ⟨rfl, rfl⟩⟩

theorem filesOnly_throw (fault : Fault) : FilesOnly (throw fault : Action α) :=
  ⟨fun _ => ⟨rfl, rfl⟩, fun _ => ⟨rfl, rfl⟩⟩

theorem filesOnly_files : FilesOnly files := ⟨fun _ => ⟨rfl, rfl⟩, fun _ => ⟨rfl, rfl⟩⟩

theorem filesOnly_setFiles (fs : FileSystem) : FilesOnly (setFiles fs) :=
  ⟨fun _ => ⟨rfl, rfl⟩, fun _ => ⟨rfl, rfl⟩⟩

theorem filesOnly_log (level : Level) (message : String) : FilesOnly (log level message) :=
  ⟨fun _ => ⟨rfl, rfl⟩, fun _ => ⟨rfl, rfl⟩⟩

theorem filesOnly_print (text : String) : FilesOnly (print text) :=
  ⟨fun _ => ⟨rfl, rfl⟩, fun _ => ⟨rfl, rfl⟩⟩

theorem filesOnly_ofExcept {ε : Type} (wrap : ε → Fault) (x : Except ε α) :
    FilesOnly (ofExcept wrap x) := by
  cases x with
  | ok x => exact filesOnly_pure x
  | error e => exact filesOnly_throw (wrap e)

theorem filesOnly_look (current : Location) (p : Path) : FilesOnly (look current p) := by
  constructor <;> intro w <;> simp

theorem FilesOnly.bind {a : Action α} {f : α → Action β} (first : FilesOnly a)
    (rest : ∀ x, FilesOnly (f x)) : FilesOnly (a >>= f) := by
  have run : ∀ w, ∃ w', a.on w = ((a.over w.files).1, w') ∧ w'.files = (a.over w.files).2 ∧
      w'.captures = w.captures ∧ w'.notices = w.notices := by
    intro w
    obtain ⟨log, shown, same⟩ := first.on_eq w
    exact ⟨_, same, rfl, rfl, rfl⟩
  constructor
  · intro w
    obtain ⟨w', same, sameFiles, -, -⟩ := run w
    rw [over_bind a rest, on_bind, same]
    rcases result : a.over w.files with ⟨_ | x, fs⟩
    · rw [result] at sameFiles
      exact ⟨rfl, sameFiles⟩
    · rw [result] at sameFiles
      obtain ⟨again, againFiles⟩ := (rest x).agree w'
      rw [sameFiles] at again againFiles
      exact ⟨again, againFiles⟩
  · intro w
    obtain ⟨w', same, -, captures, notices⟩ := run w
    rw [on_bind, same]
    rcases (a.over w.files).1 with _ | x
    · exact ⟨captures, notices⟩
    · obtain ⟨captures', notices'⟩ := (rest x).kept w'
      exact ⟨captures'.trans captures, notices'.trans notices⟩

/-- Something may come first, under a condition. -/
theorem FilesOnly.guarded {c : Prop} [Decidable c] {first : Action Unit} {rest : Action β}
    (h : FilesOnly first) (h' : FilesOnly rest) :
    FilesOnly (if c then first >>= fun _ => rest else rest) := by
  split
  · exact h.bind fun _ => h'
  · exact h'

theorem FilesOnly.map {a : Action α} (first : FilesOnly a) (f : α → β) : FilesOnly (f <$> a) := by
  rw [map_eq_pure_bind]
  exact first.bind fun x => filesOnly_pure (f x)

theorem FilesOnly.forM {f : α → Action Unit} (each : ∀ x, FilesOnly (f x)) (xs : List α) :
    FilesOnly (xs.forM f) := by
  induction xs with
  | nil => exact filesOnly_pure ()
  | cons x xs ih => exact (each x).bind fun _ => ih

/-! ## Actions apart from files -/

/-- An action that neither looks at the files nor changes them. -/
def FilesFree (a : Action α) : Prop := ∃ result, ∀ fs, a.over fs = (result, fs)

/-- What such an action has come to it comes to over all files. -/
theorem FilesFree.over_eq {a : Action α} (free : FilesFree a) {result : Except Fault α}
    {fs fs' : FileSystem} (h : a.over fs = (result, fs')) (g : FileSystem) :
    a.over g = (result, g) := by
  obtain ⟨result', same⟩ := free
  rw [same] at h ⊢
  cases h
  rfl

theorem filesFree_pure (x : α) : FilesFree (pure x) := ⟨.ok x, fun _ => rfl⟩

theorem filesFree_throw (fault : Fault) : FilesFree (throw fault : Action α) :=
  ⟨.error fault, fun _ => rfl⟩

theorem filesFree_print (text : String) : FilesFree (print text) := ⟨.ok (), fun _ => rfl⟩

theorem filesFree_log (level : Level) (message : String) : FilesFree (log level message) :=
  ⟨.ok (), fun _ => rfl⟩

theorem filesFree_ofExcept {ε : Type} (wrap : ε → Fault) (x : Except ε α) :
    FilesFree (ofExcept wrap x) := ⟨x.mapError wrap, over_ofExcept wrap x⟩

theorem FilesFree.bind {a : Action α} {f : α → Action β} (only : ∀ x, FilesOnly (f x))
    (first : FilesFree a) (rest : ∀ x, FilesFree (f x)) : FilesFree (a >>= f) := by
  obtain ⟨result, ran⟩ := first
  cases result with
  | error fault => exact ⟨.error fault, fun fs => by rw [over_bind a only, ran]⟩
  | ok x =>
    obtain ⟨result, goesOn⟩ := rest x
    exact ⟨result, fun fs => by rw [over_bind a only, ran]; exact goesOn fs⟩

theorem FilesFree.forM {f : α → Action Unit} (only : ∀ x, FilesOnly (f x))
    (each : ∀ x, FilesFree (f x)) (xs : List α) : FilesFree (xs.forM f) := by
  induction xs with
  | nil => exact filesFree_pure ()
  | cons x xs ih => exact (each x).bind (fun _ => FilesOnly.forM only xs) fun _ => ih

end Action

end Branchwork
