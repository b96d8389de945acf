import Branchwork.FileSystem.Basic
import Branchwork.Proofs.Path
import Branchwork.Proofs.Result
import Branchwork.Proofs.Table
import Mathlib.Data.List.Induction

/-!
# File systems that grow

Nothing that a run does takes a file or a directory away. `Kept` says that of two file systems:
every directory of the first is a directory of the second, and every file a file. Paths then lead
where they led before. `Grown` says more: the places of the first come first in the second, and
files are new or changed only among the places that are given as written.

`Sound` is what every tree of files satisfies: no place stands in it twice, every name is one that
a file can have, and everything lies in a directory.

Main results:

* `Kept.follow`, `Kept.stat` — what a path has led to it leads to later.
* `Kept.follow_eq_error` — what stops a path goes on stopping it.
* `Sound.put` — an entry that is put into a directory leaves a sound file system.
-/

namespace Branchwork.FileSystem

/-! ## Entries -/

/-- The places where something lies, the root apart. -/
def places (fs : FileSystem) : List Location := fs.entries.map (·.1)

@[simp] theorem get?_root (fs : FileSystem) : fs.get? [] = some .directory := rfl

theorem get?_of_ne_root {fs : FileSystem} {place : Location} (ne : place ≠ []) :
    fs.get? place = fs.entries.lookup place := if_neg ne

theorem mem_places_iff {fs : FileSystem} {place : Location} (ne : place ≠ []) :
    place ∈ fs.places ↔ (fs.get? place).isSome := by
  rw [get?_of_ne_root ne, lookup_isSome_iff, places]

theorem lookup_putEntry (place other : Location) (entry : Entry)
    (entries : List (Location × Entry)) :
    (putEntry place entry entries).lookup other =
      if other = place then some entry else entries.lookup other := by
  induction entries with
  | nil => rw [putEntry, lookup_cons_if]
  | cons first rest ih =>
    obtain ⟨p, e⟩ := first
    rw [putEntry]
    by_cases here : p = place
    · rw [if_pos here, lookup_cons_if, lookup_cons_if, here]
      split <;> rfl
    · rw [if_neg here, lookup_cons_if, lookup_cons_if, ih]
      by_cases same : other = p
      · rw [if_pos same, if_pos same, if_neg (same ▸ here)]
      · rw [if_neg same, if_neg same]

theorem get?_put (fs : FileSystem) {place : Location} (ne : place ≠ []) (entry : Entry)
    (other : Location) :
    (fs.put place entry).get? other = if other = place then some entry else fs.get? other := by
  by_cases root : other = []
  · rw [root, get?_root, get?_root, if_neg (Ne.symm ne)]
  · rw [get?_of_ne_root root, get?_of_ne_root root, put, lookup_putEntry]

theorem get?_put_self (fs : FileSystem) {place : Location} (ne : place ≠ []) (entry : Entry) :
    (fs.put place entry).get? place = some entry := by
  rw [get?_put fs ne, if_pos rfl]

theorem get?_put_of_ne (fs : FileSystem) {place other : Location} (ne : place ≠ []) (entry : Entry)
    (apart : other ≠ place) : (fs.put place entry).get? other = fs.get? other := by
  rw [get?_put fs ne, if_neg apart]

theorem places_put (fs : FileSystem) (place : Location) (entry : Entry) :
    (fs.put place entry).places =
      if place ∈ fs.places then fs.places else fs.places ++ [place] := by
  have main : ∀ entries : List (Location × Entry), (putEntry place entry entries).map (·.1) =
      if place ∈ entries.map (·.1) then entries.map (·.1) else entries.map (·.1) ++ [place] := by
    intro entries
    induction entries with
    | nil => rfl
    | cons first rest ih =>
      obtain ⟨p, e⟩ := first
      rw [putEntry]
      by_cases here : p = place
      -- the entry takes the place of an older one
      · simp [here]
      · rw [if_neg here, List.map_cons, ih]
        by_cases mem : place ∈ rest.map (·.1)
        · have still : place ∈ ((p, e) :: rest).map (·.1) := List.mem_cons_of_mem _ mem
          rw [if_pos mem, if_pos still]
          rfl
        · have absent : place ∉ ((p, e) :: rest).map (·.1) := by
            simpa [Ne.symm here] using mem
          rw [if_neg mem, if_neg absent]
          rfl
  exact main fs.entries

theorem put_places_of_isSome {fs : FileSystem} {place : Location} (ne : place ≠ []) (entry : Entry)
    (there : (fs.get? place).isSome) : (fs.put place entry).places = fs.places := by
  rw [places_put, if_pos ((mem_places_iff ne).mpr there)]

theorem mem_places_put {fs : FileSystem} {place other : Location} {entry : Entry}
    (mem : other ∈ (fs.put place entry).places) : other = place ∨ other ∈ fs.places := by
  rw [places_put] at mem
  split at mem
  · exact .inr mem
  · rcases List.mem_append.mp mem with mem | mem
    · exact .inr mem
    · exact .inl (List.mem_singleton.mp mem)

theorem nodup_places_put {fs : FileSystem} (once : fs.places.Nodup) (place : Location)
    (entry : Entry) : (fs.put place entry).places.Nodup := by
  rw [places_put]
  exact nodup_putLast once

theorem places_prefix_put (fs : FileSystem) (place : Location) (entry : Entry) :
    fs.places <+: (fs.put place entry).places := by
  rw [places_put]
  split
  · exact List.prefix_refl _
  · exact List.prefix_append _ _

/-- Of two entries for one place the later one counts. -/
theorem put_put (fs : FileSystem) (place : Location) (entry entry' : Entry) :
    (fs.put place entry).put place entry' = fs.put place entry' := by
  have main : ∀ entries, putEntry place entry' (putEntry place entry entries) =
      putEntry place entry' entries := by
    intro entries
    induction entries with
    | nil => simp only [putEntry, if_true]
    | cons first rest ih =>
      obtain ⟨p, e⟩ := first
      by_cases here : p = place
      · simp only [putEntry, if_pos here]
      · simp only [putEntry, if_neg here, ih]
  exact congrArg FileSystem.mk (main fs.entries)

/-- A file system is what lies at its places. -/
theorem ext_of_get? {fs g : FileSystem} (same : fs.places = g.places) (once : fs.places.Nodup)
    (rootless : [] ∉ fs.places) (entries : ∀ place, fs.get? place = g.get? place) : fs = g := by
  obtain ⟨xs⟩ := fs
  obtain ⟨ys⟩ := g
  refine congrArg _ (table_ext same once fun place => ?_)
  by_cases root : place = []
  · -- the root has no entry of its own
    have rootless' : [] ∉ ys.map (·.1) := (same ▸ rootless : [] ∉ places ⟨ys⟩)
    rw [root, lookup_eq_none_iff_fresh.mpr rootless, lookup_eq_none_iff_fresh.mpr rootless']
  · have here := entries place
    rwa [get?_of_ne_root root, get?_of_ne_root root] at here

/-! ## What is kept -/

/-- Every directory of a file system is a directory of another one, and every file a file. -/
structure Kept (fs g : FileSystem) : Prop where
  directory : ∀ {place}, fs.get? place = some .directory → g.get? place = some .directory
  file : ∀ {place bytes}, fs.get? place = some (.file bytes) →
    ∃ bytes', g.get? place = some (.file bytes')

/-- A file system has become another one: nothing was taken away, what is new stands behind, and
files were made or changed only at written places. -/
structure Grown (written : List Location) (fs g : FileSystem) : Prop extends Kept fs g where
  places : fs.places <+: g.places
  apart : ∀ place ∉ written, ∀ bytes,
    g.get? place = some (.file bytes) ↔ fs.get? place = some (.file bytes)

/-- Directories and files lie at the same places. -/
structure SameShape (fs g : FileSystem) : Prop where
  forth : Kept fs g
  back : Kept g fs

theorem Kept.refl (fs : FileSystem) : Kept fs fs := ⟨id, fun file => ⟨_, file⟩⟩

theorem Kept.trans {fs g h : FileSystem} (first : Kept fs g) (second : Kept g h) : Kept fs h := by
  refine ⟨fun there => second.directory (first.directory there), fun there => ?_⟩
  obtain ⟨bytes, there⟩ := first.file there
  exact second.file there

theorem Grown.refl (written : List Location) (fs : FileSystem) : Grown written fs fs :=
  ⟨.refl fs, List.prefix_refl _, fun _ _ _ => Iff.rfl⟩

theorem Grown.trans {written : List Location} {fs g h : FileSystem} (first : Grown written fs g)
    (second : Grown written g h) : Grown written fs h := by
  refine ⟨first.toKept.trans second.toKept, first.places.trans second.places, ?_⟩
  intro place notWritten bytes
  exact (second.apart place notWritten bytes).trans (first.apart place notWritten bytes)

theorem Grown.mono {written more : List Location} {fs g : FileSystem} (sub : written ⊆ more)
    (grown : Grown written fs g) : Grown more fs g :=
  ⟨grown.toKept, grown.places, fun place notWritten => grown.apart place fun mem =>
    notWritten (sub mem)⟩

theorem SameShape.refl (fs : FileSystem) : SameShape fs fs := ⟨.refl fs, .refl fs⟩

theorem SameShape.symm {fs g : FileSystem} (same : SameShape fs g) : SameShape g fs :=
  ⟨same.back, same.forth⟩

theorem SameShape.trans {fs g h : FileSystem} (first : SameShape fs g) (second : SameShape g h) :
    SameShape fs h := ⟨first.forth.trans second.forth, second.back.trans first.back⟩

theorem locate_append (fs : FileSystem) (place : Location) (names more : List String) :
    fs.locate place (names ++ more) =
      (fs.locate place names).bind fun mid => fs.locate mid more := by
  induction names generalizing place with
  | nil => rfl
  | cons name rest ih =>
    rw [List.cons_append, locate, locate]
    cases fs.get? place with
    | none => rfl
    | some entry =>
      cases entry with
      | file bytes => rfl
      | directory =>
        dsimp only
        split
        · rfl
        · exact ih _

/-- The step to a single name. -/
theorem locate_single_eq_ok {fs : FileSystem} {place found : Location} {name : String} :
    fs.locate place [name] = .ok found ↔
      fs.get? place = some .directory ∧ ¬ maxNameBytes < name.utf8ByteSize ∧
        found = if name = ".." then place.dropLast else place ++ [name] := by
  rw [locate]
  cases fs.get? place with
  | none => simp
  | some entry =>
    cases entry with
    | file bytes => simp
    | directory =>
      dsimp only
      by_cases long : maxNameBytes < name.utf8ByteSize
      · simp [long]
      · rw [if_neg long, locate]
        simp [long, eq_comm]

/-- Names and further ones lead on from where the first of them lead. -/
theorem locate_append_eq_ok {fs : FileSystem} {place found : Location} {names more : List String} :
    fs.locate place (names ++ more) = .ok found ↔
      ∃ mid, fs.locate place names = .ok mid ∧ fs.locate mid more = .ok found := by
  rw [locate_append]
  exact bind_eq_ok

/-- A name leads on only from a directory, and not if it is too long. -/
theorem locate_cons_eq_ok {fs : FileSystem} {place found : Location} {name : String}
    {rest : List String} :
    fs.locate place (name :: rest) = .ok found ↔
      fs.get? place = some .directory ∧ ¬ maxNameBytes < name.utf8ByteSize ∧
        fs.locate (if name = ".." then place.dropLast else place ++ [name]) rest = .ok found := by
  rw [← List.singleton_append, locate_append_eq_ok]
  simp only [locate_single_eq_ok]
  constructor
  · rintro ⟨mid, ⟨directory, short, rfl⟩, further⟩
    exact ⟨directory, short, further⟩
  · rintro ⟨directory, short, further⟩
    exact ⟨_, ⟨directory, short, rfl⟩, further⟩

theorem Kept.locate {fs g : FileSystem} (kept : Kept fs g) {place found : Location}
    {names : List String} (h : fs.locate place names = .ok found) :
    g.locate place names = .ok found := by
  induction names generalizing place with
  | nil => exact h
  | cons name rest ih =>
    obtain ⟨directory, short, further⟩ := locate_cons_eq_ok.mp h
    exact locate_cons_eq_ok.mpr ⟨kept.directory directory, short, ih further⟩

/-- What stops a path that is not missing anything stops it later as well. -/
theorem Kept.locate_eq_error {fs g : FileSystem} (kept : Kept fs g) {reason : Reason}
    (known : reason ≠ .missing) {place : Location} {names : List String}
    (h : fs.locate place names = .error reason) : g.locate place names = .error reason := by
  induction names generalizing place with
  | nil => cases h
  | cons name rest ih =>
    rw [FileSystem.locate] at h ⊢
    cases there : fs.get? place with
    | none =>
      rw [there] at h
      cases h
      exact absurd rfl known
    | some entry =>
      rw [there] at h
      cases entry with
      | file bytes =>
        -- a file is still a file, and stops the path as before
        obtain ⟨bytes', there'⟩ := kept.file there
        rw [there']
        exact h
      | directory =>
        -- a directory is still one, so the name is too long again or the rest is stopped
        rw [kept.directory there]
        dsimp only at h ⊢
        split at h
        · rename_i long
          rw [if_pos long]
          exact h
        · rename_i short
          rw [if_neg short]
          exact ih h

variable {current : Location} {p : Path}

theorem follow_of_short {fs : FileSystem} (short : p.text.utf8ByteSize < pathLimit) :
    fs.follow current p = fs.locate (base current p) p.parts := by
  unfold follow
  rw [if_neg (by omega)]

theorem short_of_follow {fs : FileSystem} {place : Location}
    (h : fs.follow current p = .ok place) : p.text.utf8ByteSize < pathLimit := by
  by_contra long
  unfold follow at h
  rw [if_pos (by omega)] at h
  cases h

/-- Further names are followed from where a path leads. -/
theorem follow_below {fs : FileSystem} {start : Location} {names : List String}
    (leads : fs.follow current p = .ok start)
    (short : (p.below names).text.utf8ByteSize < pathLimit) :
    fs.follow current (p.below names) = fs.locate start names := by
  have begun := leads
  rw [follow_of_short (short_of_follow leads)] at begun
  rw [follow_of_short short]
  change fs.locate (base current p) (p.parts ++ names) = _
  rw [locate_append, begun]
  rfl

theorem Kept.follow {fs g : FileSystem} (kept : Kept fs g) {place : Location}
    (h : fs.follow current p = .ok place) : g.follow current p = .ok place := by
  unfold FileSystem.follow at h ⊢
  split at h
  · cases h
  · rename_i short
    rw [if_neg short]
    exact kept.locate h

theorem Kept.follow_eq_error {fs g : FileSystem} (kept : Kept fs g) {reason : Reason}
    (known : reason ≠ .missing) (h : fs.follow current p = .error reason) :
    g.follow current p = .error reason := by
  unfold FileSystem.follow at h ⊢
  split at h
  · rename_i long
    rw [if_pos long]
    exact h
  · rename_i short
    rw [if_neg short]
    exact kept.locate_eq_error known h

theorem stat_eq_ok {fs : FileSystem} {place : Location} {entry : Entry} :
    fs.stat current p = .ok (place, entry) ↔
      fs.follow current p = .ok place ∧ fs.get? place = some entry := by
  unfold stat
  cases fs.follow current p with
  | error reason => simp
  | ok found =>
    dsimp only
    cases there : fs.get? found with
    | none =>
      simp only [Option.elim_none, reduceCtorEq, Except.ok.injEq, false_iff, not_and]
      rintro rfl
      simp [there]
    | some entry' =>
      simp only [Option.elim_some, Except.ok.injEq, Prod.mk.injEq]
      constructor
      · rintro ⟨rfl, rfl⟩
        exact ⟨rfl, there⟩
      · rintro ⟨rfl, same⟩
        rw [there] at same
        cases same
        exact ⟨rfl, rfl⟩

theorem isDirectory_iff {fs : FileSystem} :
    fs.isDirectory current p = true ↔
      ∃ place, fs.follow current p = .ok place ∧ fs.get? place = some .directory := by
  simp only [← stat_eq_ok]
  unfold isDirectory
  split
  · simp_all
  · rename_i other
    simp only [Bool.false_eq_true, false_iff, not_exists]
    exact fun place h => other place h

theorem Kept.isDirectory {fs g : FileSystem} (kept : Kept fs g)
    (h : fs.isDirectory current p = true) : g.isDirectory current p = true := by
  obtain ⟨place, leads, there⟩ := isDirectory_iff.mp h
  exact isDirectory_iff.mpr ⟨place, kept.follow leads, kept.directory there⟩

theorem look_eq_some {fs : FileSystem} {place : Location} {entry : Entry} :
    fs.look current p = .ok (some (place, entry)) ↔
      fs.follow current p = .ok place ∧ fs.get? place = some entry := by
  rw [← stat_eq_ok]
  unfold look
  cases fs.stat current p with
  | ok found => simp
  | error reason => cases reason <;> simp

/-- Only a name that is too long cannot be looked up. -/
theorem look_isOk_iff {fs : FileSystem} :
    (∃ found, fs.look current p = .ok found) ↔ fs.follow current p ≠ .error .nameTooLong := by
  unfold look stat
  cases fs.follow current p with
  | error reason => cases reason <;> simp
  | ok place =>
    dsimp only
    cases fs.get? place <;> simp

theorem look_eq_error {fs : FileSystem} {fault : Fault} :
    fs.look current p = .error fault ↔
      fs.follow current p = .error .nameTooLong ∧ fault = ⟨.nameTooLong, p.text⟩ := by
  unfold look stat
  cases fs.follow current p with
  | error reason => cases reason <;> simp [eq_comm]
  | ok place =>
    dsimp only
    cases fs.get? place <;> simp

theorem Kept.look_isOk {fs g : FileSystem} (kept : Kept fs g)
    (h : ∃ found, g.look current p = .ok found) : ∃ found, fs.look current p = .ok found := by
  rw [look_isOk_iff] at h ⊢
  exact mt (kept.follow_eq_error (by decide)) h

theorem Kept.look {fs g : FileSystem} (kept : Kept fs g) {place : Location} {entry : Entry}
    (h : fs.look current p = .ok (some (place, entry))) :
    ∃ entry', g.look current p = .ok (some (place, entry')) ∧
      (entry' = .directory ↔ entry = .directory) := by
  obtain ⟨leads, there⟩ := look_eq_some.mp h
  have leads := kept.follow leads
  cases entry with
  | directory => exact ⟨.directory, look_eq_some.mpr ⟨leads, kept.directory there⟩, Iff.rfl⟩
  | file bytes =>
    obtain ⟨bytes', there⟩ := kept.file there
    exact ⟨.file bytes', look_eq_some.mpr ⟨leads, there⟩, by simp⟩

/-! ## Writing files -/

theorem writeFile_of_follow {fs : FileSystem} {place : Location}
    (leads : fs.follow current p = .ok place) (free : fs.get? place ≠ some .directory)
    (bytes : List UInt8) : fs.writeFile current p bytes = .ok (fs.put place (.file bytes)) := by
  unfold writeFile
  rw [leads]
  exact if_neg free

theorem writeFile_eq_error {fs : FileSystem} {bytes : List UInt8} {fault : Fault} :
    fs.writeFile current p bytes = .error fault ↔
      (∃ reason, fs.follow current p = .error reason ∧ fault = ⟨reason, p.text⟩) ∨
        ∃ place, fs.follow current p = .ok place ∧ fs.get? place = some .directory ∧
          fault = ⟨.isDirectory, p.text⟩ := by
  unfold writeFile
  cases fs.follow current p with
  | error reason => simp [eq_comm]
  | ok place =>
    dsimp only
    by_cases there : fs.get? place = some .directory
    -- a directory is in the way, which is the only refusal behind the path
    · rw [if_pos there]
      constructor
      · intro same
        cases same
        exact .inr ⟨place, rfl, there, rfl⟩
      · rintro (⟨_, other, -⟩ | ⟨_, -, -, rfl⟩)
        · cases other
        · rfl
    · rw [if_neg there]
      constructor
      · intro other
        cases other
      · rintro (⟨_, other, -⟩ | ⟨_, same, directory, -⟩)
        · cases other
        · cases same
          exact absurd directory there

theorem writeFile_cases (fs : FileSystem) (current : Location) (p : Path) :
    (∃ fault, ∀ bytes, fs.writeFile current p bytes = .error fault) ∨
      ∃ place, fs.follow current p = .ok place ∧ fs.get? place ≠ some .directory := by
  cases leads : fs.follow current p with
  | error reason =>
    exact .inl ⟨_, fun bytes => writeFile_eq_error.mpr (.inl ⟨reason, leads, rfl⟩)⟩
  | ok place =>
    by_cases there : fs.get? place = some .directory
    · exact .inl ⟨_, fun bytes => writeFile_eq_error.mpr (.inr ⟨place, leads, there, rfl⟩)⟩
    · exact .inr ⟨place, rfl, there⟩

/-- A file that cannot be written, though nothing is missing on its way, cannot be written later. -/
theorem Kept.writeFile_eq_error {fs g : FileSystem} (kept : Kept fs g)
    (known : fs.follow current p ≠ .error .missing) {bytes : List UInt8} {fault : Fault}
    (fails : fs.writeFile current p bytes = .error fault) :
    g.writeFile current p bytes = .error fault := by
  rw [FileSystem.writeFile_eq_error] at fails ⊢
  refine fails.imp ?_ ?_
  · rintro ⟨reason, refused, rfl⟩
    have reached : reason ≠ .missing := by
      rintro rfl
      exact known refused
    exact ⟨reason, kept.follow_eq_error reached refused, rfl⟩
  · rintro ⟨place, leads, there, rfl⟩
    exact ⟨place, kept.follow leads, kept.directory there, rfl⟩

/-! ## Sound file systems -/

/-- No place stands twice in the file system, all names are proper, and everything lies in a
directory. -/
structure Sound (fs : FileSystem) : Prop where
  once : fs.places.Nodup
  rootless : [] ∉ fs.places
  proper : ∀ place ∈ fs.places, ∀ name ∈ place, Path.IsName name
  inside : ∀ place ∈ fs.places, fs.get? place.dropLast = some .directory

theorem Sound.proper_of_isSome {fs : FileSystem} (sound : fs.Sound) {place : Location}
    (there : (fs.get? place).isSome) : ∀ name ∈ place, Path.IsName name := by
  by_cases root : place = []
  · simp [root]
  · exact sound.proper place ((mem_places_iff root).mpr there)

theorem Sound.mem_entries_iff {fs : FileSystem} (sound : fs.Sound) {place : Location}
    {entry : Entry} : (place, entry) ∈ fs.entries ↔ place ≠ [] ∧ fs.get? place = some entry := by
  rw [← lookup_eq_some_iff sound.once]
  constructor
  · intro there
    have ne : place ≠ [] := by
      rintro rfl
      have mem := (lookup_isSome_iff fs.entries []).mp (by rw [there]; rfl)
      exact sound.rootless mem
    exact ⟨ne, by rw [get?_of_ne_root ne, there]⟩
  · rintro ⟨ne, there⟩
    rwa [get?_of_ne_root ne] at there

theorem Sound.above {fs : FileSystem} (sound : fs.Sound) {place : Location}
    (there : (fs.get? place).isSome) : fs.get? place.dropLast = some .directory := by
  by_cases root : place = []
  · rw [root, List.dropLast_nil, get?_root]
  · exact sound.inside place ((mem_places_iff root).mpr there)

/-- Everything on the way to something is a directory. -/
theorem Sound.directory_of_append {fs : FileSystem} (sound : fs.Sound) {place : Location}
    {names : List String} (ne : names ≠ []) (there : (fs.get? (place ++ names)).isSome) :
    fs.get? place = some .directory := by
  induction names using List.reverseRecOn with
  | nil => exact absurd rfl ne
  | append_singleton names last ih =>
    have above := sound.above there
    rw [← List.append_assoc, List.dropLast_concat] at above
    by_cases empty : names = []
    · rwa [empty, List.append_nil] at above
    · exact ih empty (by rw [above]; rfl)

/-- A sound file system is given by what lies at its places. -/
theorem Sound.ext {fs g : FileSystem} (sound : fs.Sound) (same : fs.places = g.places)
    (entries : ∀ place, fs.get? place = g.get? place) : fs = g :=
  ext_of_get? same sound.once sound.rootless entries

/-- A name that can be followed is short. -/
theorem locate_short {fs : FileSystem} {place found : Location} {names : List String}
    (h : fs.locate place names = .ok found) :
    ∀ name ∈ names, ¬ maxNameBytes < name.utf8ByteSize := by
  induction names generalizing place with
  | nil => simp
  | cons name rest ih =>
    obtain ⟨-, short, further⟩ := locate_cons_eq_ok.mp h
    intro other mem
    rcases List.mem_cons.mp mem with rfl | mem
    · exact short
    · exact ih further other mem

/-- Names that do not lead back lead to the place below. -/
theorem locate_forth {fs : FileSystem} {place found : Location} {names : List String}
    (h : fs.locate place names = .ok found) (forth : ".." ∉ names) : found = place ++ names := by
  induction names generalizing place with
  | nil =>
    cases h
    rw [List.append_nil]
  | cons name rest ih =>
    obtain ⟨-, -, further⟩ := locate_cons_eq_ok.mp h
    rw [List.mem_cons, not_or] at forth
    rw [if_neg (Ne.symm forth.1)] at further
    rw [ih further forth.2, List.append_assoc, List.singleton_append]

/-- What lies in a sound file system is found under its names. -/
theorem Sound.locate {fs : FileSystem} (sound : fs.Sound) {place : Location} {names : List String}
    (there : (fs.get? (place ++ names)).isSome) (forth : ".." ∉ names)
    (short : ∀ name ∈ names, ¬ maxNameBytes < name.utf8ByteSize) :
    fs.locate place names = .ok (place ++ names) := by
  induction names generalizing place with
  | nil => rw [FileSystem.locate, List.append_nil]
  | cons name rest ih =>
    have here := sound.directory_of_append (List.cons_ne_nil name rest) there
    rw [List.mem_cons, not_or] at forth
    rw [← List.singleton_append, ← List.append_assoc] at there ⊢
    refine locate_cons_eq_ok.mpr ⟨here, short name List.mem_cons_self, ?_⟩
    rw [if_neg (Ne.symm forth.1)]
    exact ih there forth.2 fun other mem => short other (List.mem_cons_of_mem _ mem)

/-! ## Growth by one entry -/

theorem ne_root_of_free {fs : FileSystem} {place : Location}
    (free : fs.get? place ≠ some .directory) : place ≠ [] := by
  rintro rfl
  exact free (get?_root fs)

/-- Putting a file where no directory lies keeps everything, and changes that place only. -/
theorem grown_put_file {fs : FileSystem} {place : Location}
    (free : fs.get? place ≠ some .directory) (bytes : List UInt8) :
    Grown [place] fs (fs.put place (.file bytes)) := by
  have ne := ne_root_of_free free
  refine ⟨⟨fun {other} there => ?_, fun {other} bytes' there => ?_⟩, places_prefix_put _ _ _, ?_⟩
  · rw [get?_put_of_ne fs ne _, there]
    rintro rfl
    exact free there
  · rw [get?_put fs ne]
    split
    · exact ⟨bytes, rfl⟩
    · exact ⟨bytes', there⟩
  · intro other notWritten bytes'
    rw [get?_put_of_ne fs ne _ (by simpa using notWritten)]

/-- Making a directory where nothing lies keeps everything. -/
theorem grown_put_directory {fs : FileSystem} {place : Location} (missing : fs.get? place = none) :
    Grown [] fs (fs.put place .directory) := by
  have ne : place ≠ [] := by
    rintro rfl
    cases missing
  have kept : ∀ other entry, fs.get? other = some entry →
      (fs.put place .directory).get? other = some entry := by
    intro other entry there
    rw [get?_put_of_ne fs ne _, there]
    rintro rfl
    rw [missing] at there
    cases there
  refine ⟨⟨fun there => kept _ _ there, fun there => ⟨_, kept _ _ there⟩⟩, places_prefix_put _ _ _,
    fun other _ bytes => ⟨fun there => ?_, kept other _⟩⟩
  -- a file lies in another place than the new directory
  rw [get?_put fs ne] at there
  split at there
  · cases there
  · exact there

/-! ## Files that are written again -/

/-- Files at the given places have been written again, and are now as in `g`. -/
structure Rewritten (written : List Location) (g later later' : FileSystem) : Prop where
  shape : SameShape later later'
  places : later'.places = later.places
  inside : ∀ place ∈ written, later'.get? place = g.get? place
  outside : ∀ place ∉ written, later'.get? place = later.get? place

theorem Rewritten.refl (g later : FileSystem) : Rewritten [] g later later :=
  ⟨.refl later, rfl, fun _ mem => (List.not_mem_nil mem).elim, fun _ _ => rfl⟩

theorem rewritten_put {g later : FileSystem} {place : Location} {bytes : List UInt8}
    (file : g.get? place = some (.file bytes)) (kept : Kept g later) :
    Rewritten [place] g later (later.put place (.file bytes)) := by
  obtain ⟨bytes', there⟩ := kept.file file
  have ne : place ≠ [] := ne_root_of_free (show later.get? place ≠ some .directory by simp [there])
  have outside : ∀ other ≠ place, (later.put place (.file bytes)).get? other = later.get? other :=
    fun other apart => get?_put_of_ne later ne _ apart
  have inside := get?_put_self later ne (.file bytes)
  refine ⟨⟨(grown_put_file (by simp [there]) bytes).toKept, ?_, ?_⟩,
    put_places_of_isSome ne _ (by rw [there]; rfl), ?_, ?_⟩
  · -- what is a directory afterwards is not the file that was written
    intro other directory
    rwa [outside other (by rintro rfl; rw [inside] at directory; cases directory)] at directory
  · intro other bytes'' file
    -- the place itself was a file before, every other one is as it was
    by_cases same : other = place
    · exact ⟨bytes', same ▸ there⟩
    · exact ⟨bytes'', by rwa [outside other same] at file⟩
  · intro other mem
    rw [List.mem_singleton.mp mem, inside, file]
  · exact fun other apart => outside other (by simpa using apart)

/-- Files that were written again one after the other: what was written first stands, unless it was
written over. -/
theorem Rewritten.append {written more : List Location} {g h later mid later' : FileSystem}
    (first : Rewritten written g later mid) (second : Rewritten more h mid later')
    (files : ∀ place ∈ written, ∃ bytes, g.get? place = some (.file bytes))
    (grown : Grown more g h) : Rewritten (written ++ more) h later later' := by
  refine ⟨first.shape.trans second.shape, second.places.trans first.places, ?_, ?_⟩
  · intro place mem
    by_cases twice : place ∈ more
    · exact second.inside place twice
    · have here := (List.mem_append.mp mem).resolve_right twice
      obtain ⟨bytes, file⟩ := files place here
      rw [second.outside place twice, first.inside place here, file]
      exact ((grown.apart place twice bytes).mpr file).symm
  · intro place apart
    rw [List.mem_append, not_or] at apart
    rw [second.outside place apart.2, first.outside place apart.1]

/-- Files that were written again have only grown, and would only grow back. -/
theorem Rewritten.grown {written : List Location} {g later later' : FileSystem}
    (again : Rewritten written g later later') : Grown written later later' := by
  refine ⟨again.shape.forth, ?_, fun place apart bytes => ?_⟩
  · exact again.places ▸ List.prefix_refl _
  · rw [again.outside place apart]

theorem Rewritten.back {written : List Location} {g later later' : FileSystem}
    (again : Rewritten written g later later') : Grown written later' later := by
  refine ⟨again.shape.back, ?_, fun place apart bytes => ?_⟩
  · exact again.places ▸ List.prefix_refl _
  · rw [again.outside place apart]

/-- Where the files were as in `g` already nothing has changed. -/
theorem Rewritten.eq {written : List Location} {g later later' : FileSystem}
    (again : Rewritten written g later later') (sound : later.Sound)
    (same : ∀ place ∈ written, later.get? place = g.get? place) : later' = later := by
  refine (sound.ext again.places.symm fun place => ?_).symm
  by_cases mem : place ∈ written
  · rw [again.inside place mem, same place mem]
  · rw [again.outside place mem]

/-- An entry may be put into a directory under a proper name, but not in the place of a directory,
unless it is one. -/
structure Room (fs : FileSystem) (place : Location) : Prop where
  ne_root : place ≠ []
  proper : ∀ name ∈ place, Path.IsName name
  inside : fs.get? place.dropLast = some .directory
  free : fs.get? place ≠ some .directory

theorem Sound.put {fs : FileSystem} (sound : fs.Sound) {place : Location} (room : fs.Room place)
    (entry : Entry) : (fs.put place entry).Sound := by
  have kept : ∀ other, fs.get? other = some .directory →
      (fs.put place entry).get? other = some .directory := by
    intro other there
    rw [get?_put_of_ne fs room.ne_root entry, there]
    rintro rfl
    exact room.free there
  refine ⟨nodup_places_put sound.once _ _, fun root => ?_, fun other there => ?_,
    fun other there => ?_⟩
  · rcases mem_places_put root with same | old
    · exact room.ne_root same.symm
    · exact sound.rootless old
  · rcases mem_places_put there with rfl | old
    · exact room.proper
    · exact sound.proper other old
  · -- directories stay where they were, so what lay in one still does
    rcases mem_places_put there with rfl | old
    · exact kept _ room.inside
    · exact kept _ (sound.inside other old)

/-! ## Where a path ends -/

/-- What a path leads to lies in a directory, under proper names. -/
theorem Sound.follow_spec {fs : FileSystem} (sound : fs.Sound)
    (here : fs.get? current = some .directory) (proper : p.Proper) {place : Location}
    (leads : fs.follow current p = .ok place) :
    fs.get? place.dropLast = some .directory ∧ ∀ name ∈ place, Path.IsName name := by
  have start : fs.get? (base current p) = some .directory := by
    unfold base
    split
    · exact get?_root fs
    · exact here
  have located : fs.locate (base current p) p.parts = .ok place := by
    unfold follow at leads
    split at leads
    · cases leads
    · exact leads
  rcases List.eq_nil_or_concat p.parts with none_left | ⟨names, last, split⟩
  · -- the path is where it starts
    rw [none_left] at located
    cases located
    exact ⟨sound.above (by rw [start]; rfl), sound.proper_of_isSome (by rw [start]; rfl)⟩
  · -- the last name is followed from a directory
    rw [split, List.concat_eq_append] at located
    obtain ⟨mid, -, single⟩ := locate_append_eq_ok.mp located
    obtain ⟨there, -, rfl⟩ := locate_single_eq_ok.mp single
    have named := sound.proper_of_isSome (by rw [there]; rfl)
    by_cases back : last = ".."
    · rw [if_pos back]
      have above : fs.get? mid.dropLast = some .directory := sound.above (by rw [there]; rfl)
      exact ⟨sound.above (by rw [above]; rfl), fun name mem =>
        named name (List.dropLast_subset mid mem)⟩
    · rw [if_neg back, List.dropLast_concat]
      refine ⟨there, fun name mem => ?_⟩
      rcases List.mem_append.mp mem with mem | mem
      · exact named name mem
      · rw [List.mem_singleton.mp mem]
        have known := proper last (by rw [split, List.concat_eq_append]; simp)
        exact known.resolve_left back

theorem Sound.room {fs : FileSystem} (sound : fs.Sound)
    (here : fs.get? current = some .directory) (proper : p.Proper) {place : Location}
    (leads : fs.follow current p = .ok place) (free : fs.get? place ≠ some .directory) :
    fs.Room place := by
  obtain ⟨inside, named⟩ := sound.follow_spec here proper leads
  exact ⟨ne_root_of_free free, named, inside, free⟩

end Branchwork.FileSystem
