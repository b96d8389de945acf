import Branchwork.Proofs.FileSystem.Directories

/-!
# What an operation sees of a file system

A path is followed from place to place, and whatever is done along it depends on what lies there. A
`View` tells for each place how much of it is looked at, and two file systems are `Alike` in a view if
there is nothing in it by which they could be told apart. An operation along a path that is in the view
comes to the same over both, and leaves them alike.

The places along a path are told by its names alone (`trail`). They are places that the path may lead
over; where it ends early it sees less.

Main results:

* `Alike.readFile`, `Alike.look` — what is read along a path in view.
* `Alike.writeFile`, `Alike.ensures` — what is written and made along such a path.
-/

namespace Branchwork.FileSystem

/-! ## Views -/

/-- How much is seen of what lies at a place: nothing, the file if it is one, or everything. -/
inductive Sight where
  | nothing
  | file
  | everything
deriving DecidableEq

/-- What is seen of an entry. -/
def Sight.of : Sight → Option Entry → Option Entry
  | .nothing, _ => none
  | .file, some (.file bytes) => some (.file bytes)
  | .file, _ => none
  | .everything, found? => found?

/-- How much is seen at each place. -/
abbrev View := Location → Sight

/-- Two file systems, neither of which has a place twice, that no view of them tells apart. -/
structure Alike (view : View) (fs g : FileSystem) : Prop where
  once : fs.places.Nodup
  once' : g.places.Nodup
  same : ∀ place, (view place).of (fs.get? place) = (view place).of (g.get? place)

variable {view : View} {fs g h : FileSystem} {current place : Location} {p : Path}

theorem Alike.refl (once : fs.places.Nodup) : Alike view fs fs := ⟨once, once, fun _ => rfl⟩

theorem Alike.symm (alike : Alike view fs g) : Alike view g fs :=
  ⟨alike.once', alike.once, fun place => (alike.same place).symm⟩

theorem Alike.trans (first : Alike view fs g) (second : Alike view g h) : Alike view fs h :=
  ⟨first.once, second.once', fun place => (first.same place).trans (second.same place)⟩

theorem Alike.get? (alike : Alike view fs g) (seen : view place = .everything) :
    fs.get? place = g.get? place := by
  have same := alike.same place
  rwa [seen] at same

theorem Sight.of_eq_file {sight : Sight} (seen : sight ≠ .nothing) {found? : Option Entry}
    {bytes : List UInt8} :
    sight.of found? = some (.file bytes) ↔ found? = some (.file bytes) := by
  cases sight with
  | nothing => exact absurd rfl seen
  | everything => exact Iff.rfl
  | file => rcases found? with _ | _ | _ <;> simp [Sight.of]

/-- A file that is seen at all is the same file. -/
theorem Alike.file_iff (alike : Alike view fs g) (seen : view place ≠ .nothing)
    (bytes : List UInt8) :
    fs.get? place = some (.file bytes) ↔ g.get? place = some (.file bytes) := by
  rw [← Sight.of_eq_file seen, alike.same, Sight.of_eq_file seen]

/-- What is put in both at one place is seen in both. -/
theorem Alike.put (alike : Alike view fs g) (ne : place ≠ []) (entry : Entry) :
    Alike view (fs.put place entry) (g.put place entry) := by
  refine ⟨nodup_places_put alike.once _ _, nodup_places_put alike.once' _ _, fun other => ?_⟩
  rw [get?_put fs ne, get?_put g ne]
  split
  · rfl
  · exact alike.same other

/-! ## Paths in view -/

/-- The places along names that start at a place, its own first. -/
def trail : Location → List String → List Location
  | place, [] => [place]
  | place, name :: rest =>
    place :: trail (if name = ".." then place.dropLast else place ++ [name]) rest

theorem trail_append (place : Location) (names more : List String) :
    trail place names ⊆ trail place (names ++ more) := by
  induction names generalizing place with
  | nil =>
    intro other mem
    rw [List.mem_singleton.mp mem]
    cases more <;> exact List.mem_cons_self
  | cons name rest ih =>
    rw [List.cons_append, trail, trail]
    exact List.cons_subset_cons _ (ih _)

/-- A path all of whose places are seen. -/
def Sees (view : View) (current : Location) (p : Path) : Prop :=
  ∀ place ∈ trail (base current p) p.parts, view place = .everything

/-- The files directly in a directory, and the way there and back. -/
structure SeesFiles (view : View) (current : Location) (p : Path) : Prop where
  back : Sees view current (p.below [".."])
  files : ∀ place, (trail (base current p) p.parts).getLast? = some place →
    ∀ name, view (place ++ [name]) ≠ .nothing

theorem Sees.above {anchor : Path.Anchor} {names more : List String}
    (sees : Sees view current ⟨anchor, names ++ more⟩) : Sees view current ⟨anchor, names⟩ :=
  fun place mem => sees place (trail_append _ names more mem)

theorem Sees.parent (sees : Sees view current p) : Sees view current p.parent := by
  obtain ⟨anchor, parts⟩ := p
  rcases List.eq_nil_or_concat parts with rfl | ⟨above, last, rfl⟩
  · exact sees
  · rw [List.concat_eq_append] at sees
    have parent : (⟨anchor, above.concat last⟩ : Path).parent = ⟨anchor, above⟩ := by
      simp [Path.parent]
    rw [parent]
    exact sees.above

/-- Where names lead they lead to the last place of their trail. -/
theorem getLast?_trail {found : Location} {names : List String}
    (leads : fs.locate place names = .ok found) : (trail place names).getLast? = some found := by
  induction names generalizing place with
  | nil =>
    cases leads
    rfl
  | cons name rest ih =>
    rw [locate] at leads
    split at leads
    · cases leads
    · cases leads
    · split at leads
      · cases leads
      · rw [trail, List.getLast?_cons, ih leads]
        rfl

theorem last_of_follow (leads : fs.follow current p = .ok place) :
    (trail (base current p) p.parts).getLast? = some place := by
  rw [follow_of_short (short_of_follow leads)] at leads
  exact getLast?_trail leads

/-- Where a path in view leads is in view. -/
theorem Sees.last (sees : Sees view current p) (leads : fs.follow current p = .ok place) :
    view place = .everything :=
  sees place (List.mem_of_getLast? (last_of_follow leads))

namespace Alike

variable (alike : Alike view fs g)
include alike

theorem locate {names : List String} (seen : ∀ other ∈ trail place names, view other = .everything) :
    fs.locate place names = g.locate place names := by
  induction names generalizing place with
  | nil => rfl
  | cons name rest ih =>
    rw [FileSystem.locate, FileSystem.locate, alike.get? (seen place List.mem_cons_self)]
    have further := ih fun other mem => seen other (List.mem_cons_of_mem _ mem)
    rcases g.get? place with _ | _ | _
    · rfl
    · rfl
    · simp only [further]

variable (sees : Sees view current p)
include sees

theorem follow : fs.follow current p = g.follow current p := by
  unfold FileSystem.follow
  rw [alike.locate sees]

theorem stat : fs.stat current p = g.stat current p := by
  unfold FileSystem.stat
  rw [← alike.follow sees]
  cases leads : fs.follow current p with
  | error reason => rfl
  | ok place =>
    dsimp only
    rw [alike.get? (sees.last leads)]

theorem look : fs.look current p = g.look current p := by
  unfold FileSystem.look
  rw [alike.stat sees]

theorem readFile : fs.readFile current p = g.readFile current p := by
  unfold FileSystem.readFile
  rw [alike.stat sees]

theorem isDirectory : fs.isDirectory current p = g.isDirectory current p := by
  unfold FileSystem.isDirectory
  rw [alike.stat sees]

/-- A file is written in both or in neither. -/
theorem writeFile (bytes : List UInt8) :
    (∃ fault, fs.writeFile current p bytes = .error fault ∧
        g.writeFile current p bytes = .error fault) ∨
      ∃ fs' g', fs.writeFile current p bytes = .ok fs' ∧ g.writeFile current p bytes = .ok g' ∧
        Alike view fs' g' := by
  unfold FileSystem.writeFile
  rw [← alike.follow sees]
  cases leads : fs.follow current p with
  | error reason => exact .inl ⟨_, rfl, rfl⟩
  | ok place =>
    dsimp only
    rw [← alike.get? (sees.last leads)]
    by_cases directory : fs.get? place = some .directory
    · rw [if_pos directory, if_pos directory]
      exact .inl ⟨_, rfl, rfl⟩
    · rw [if_neg directory, if_neg directory]
      have ne : place ≠ [] := by
        rintro rfl
        exact directory (get?_root fs)
      exact .inr ⟨_, _, rfl, rfl, alike.put ne _⟩

theorem makeDirectory_eq_ok {fs' : FileSystem} (made : fs.makeDirectory current p = .ok fs') :
    ∃ g', g.makeDirectory current p = .ok g' ∧ Alike view fs' g' := by
  obtain ⟨place, leads, missing, rfl⟩ := FileSystem.makeDirectory_eq_ok.mp made
  have seen := sees.last leads
  have ne : place ≠ [] := by
    rintro rfl
    cases missing
  rw [alike.follow sees] at leads
  rw [alike.get? seen] at missing
  exact ⟨_, FileSystem.makeDirectory_eq_ok.mpr ⟨place, leads, missing, rfl⟩, alike.put ne _⟩

theorem makeDirectory_eq_error {reason : Reason}
    (refused : fs.makeDirectory current p = .error reason) :
    g.makeDirectory current p = .error reason := by
  rw [FileSystem.makeDirectory_eq_error, ← alike.follow sees]
  rcases FileSystem.makeDirectory_eq_error.mp refused with stopped | ⟨place, leads, there, same⟩
  · exact .inl stopped
  · rw [alike.get? (sees.last leads)] at there
    exact .inr ⟨place, leads, there, same⟩

end Alike

/-- The directories of a path are made in both as far as they are missing, and refused in both. -/
theorem Alike.ensures {anchor : Path.Anchor} {names : List String} {fault? : Option Fault}
    {fs' : FileSystem} (alike : Alike view fs g) (sees : Sees view current (upward anchor names))
    (h : Ensures current anchor fs names fault? fs') :
    ∃ g', Ensures current anchor g names fault? g' ∧ Alike view fs' g' := by
  have above_sees : ∀ {name above}, Sees view current (upward anchor (name :: above)) →
      Sees view current (upward anchor above) := by
    intro name above sees
    unfold upward at sees
    rw [List.reverse_cons] at sees
    exact sees.above
  -- what was made along the way is put in both, so the next directory meets the same again
  induction h generalizing g with
  | nothing => exact ⟨g, .nothing, alike⟩
  | made first =>
    obtain ⟨g', made, alike'⟩ := alike.makeDirectory_eq_ok sees first
    exact ⟨g', .made made, alike'⟩
  | there directory =>
    rw [alike.isDirectory sees] at directory
    exact ⟨g, .there directory, alike⟩
  | refused first reached directory =>
    rw [alike.isDirectory sees] at directory
    exact ⟨g, .refused (alike.makeDirectory_eq_error sees first) reached directory, alike⟩
  | aboveRefused first _ ih =>
    obtain ⟨g', above, alike'⟩ := ih alike (above_sees sees)
    exact ⟨g', .aboveRefused (alike.makeDirectory_eq_error sees first) above, alike'⟩
  | madeBelow first _ second ih =>
    obtain ⟨mid, above, alike'⟩ := ih alike (above_sees sees)
    obtain ⟨g', made, alike''⟩ := alike'.makeDirectory_eq_ok sees second
    exact ⟨g', .madeBelow (alike.makeDirectory_eq_error sees first) above made, alike''⟩
  | thereBelow first _ directory ih =>
    obtain ⟨mid, above, alike'⟩ := ih alike (above_sees sees)
    rw [alike'.isDirectory sees] at directory
    exact ⟨mid, .thereBelow (alike.makeDirectory_eq_error sees first) above directory, alike'⟩
  | refusedBelow first _ second directory ih =>
    obtain ⟨mid, above, alike'⟩ := ih alike (above_sees sees)
    rw [alike'.isDirectory sees] at directory
    exact ⟨mid, .refusedBelow (alike.makeDirectory_eq_error sees first) above
      (alike'.makeDirectory_eq_error sees second) directory, alike'⟩

end Branchwork.FileSystem
