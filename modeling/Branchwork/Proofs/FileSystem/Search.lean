import Branchwork.FileSystem.Glob
import Branchwork.Proofs.FileSystem.Growth
import Branchwork.Proofs.Result

/-!
# Searches in file systems that grow

`Finds` says which names a search leads to, step by step. What is found in a file system is found
again when it has grown, and a search that comes to an end in the larger one comes to an end in the
smaller one. The other way round, a file that is found later and was there before was found before,
unless the pattern leads back: with `..` in it, a directory that was made since may open a new way
to an old file.

Main results:

* `glob_subset` — a search in the larger file system finds more.
* `Finds.earlier` — an old file is found in the smaller file system already.
* `mem_find`, `glob_ascending` — which names a search gives, and in which order.
* `glob_eq_error` — why a search fails.
-/

namespace Branchwork.FileSystem

variable {current : Location} {p : Path}

/-! ## Steps of a search -/

/-- Names lead to a directory, or to a file at the end of a pattern that asks for files. -/
def Wanted (fs : FileSystem) (current : Location) (only : Bool) (walked : Path)
    (rest : List GlobPart) (names : List String) : Prop :=
  ∃ place entry, fs.look current (walked.below names) = .ok (some (place, entry)) ∧
    (entry = .directory ∨ (rest = [] ∧ only = false))

/-- The names that a component of a pattern goes on with. -/
inductive StepsTo (fs : FileSystem) (current : Location) (only : Bool) (walked : Path)
    (rest : List GlobPart) : GlobPart → List String → Prop
  | directories {place entry step} : fs.look current walked = .ok (some (place, entry)) →
      step ∈ fs.directoriesBelow place → StepsTo fs current only walked rest .directories step
  | back : StepsTo fs current only walked rest .back [".."]
  | name {component} : Wanted fs current only walked rest [component] →
      StepsTo fs current only walked rest (.name component) [component]
  | wild {items place entry name} : fs.look current walked = .ok (some (place, entry)) →
      name ∈ fs.children place → matchesItems items name.toList →
      Wanted fs current only walked rest [name] →
      StepsTo fs current only walked rest (.wild items) [name]

/-- The names that the components of a pattern lead to. -/
inductive Finds (fs : FileSystem) (current : Location) (only : Bool) :
    Path → List GlobPart → List String → Prop
  | here {walked} : Finds fs current only walked [] []
  | step {walked part rest step below} : StepsTo fs current only walked rest part step →
      Finds fs current only (walked.below step) rest below →
      Finds fs current only walked (part :: rest) (step ++ below)

/-- What is asked of the names that a component stands for. -/
def isWanted (fs : FileSystem) (current : Location) (only : Bool) (walked : Path)
    (rest : List GlobPart) (names : List String) : Except Fault Bool := do
  match ← fs.look current (walked.below names) with
  | some (_, .directory) => return true
  | some (_, .file _) => return rest.isEmpty && !only
  | none => return false

/-- The steps of a component. -/
def stepsOf (fs : FileSystem) (current : Location) (only : Bool) (walked : Path)
    (rest : List GlobPart) (place? : Option Location) : GlobPart → Except Fault (List (List String))
  | .directories => .ok (place?.elim [] fs.directoriesBelow)
  | .back => .ok [[".."]]
  | .name component => [[component]].filterM (fs.isWanted current only walked rest)
  | .wild items =>
    (((place?.elim [] fs.children).filter fun name => matchesItems items name.toList).map
      fun name => [name]).filterM (fs.isWanted current only walked rest)

theorem select_cons (fs : FileSystem) (current : Location) (walked : Path) (only : Bool)
    (part : GlobPart) (rest : List GlobPart) :
    fs.select current walked only (part :: rest) = (do
      let found? ← fs.look current walked
      let steps ← fs.stepsOf current only walked rest (found?.map (·.1)) part
      let found ← steps.mapM fun step => do
        let below ← fs.select current (walked.below step) only rest
        return below.map (step ++ ·)
      return found.flatten) := by
  rw [select]
  cases fs.look current walked with
  | error fault => rfl
  | ok found? => cases part <;> rfl

theorem isWanted_eq_true {fs : FileSystem} {only : Bool} {walked : Path} {rest : List GlobPart}
    {names : List String} : fs.isWanted current only walked rest names = .ok true ↔
      Wanted fs current only walked rest names := by
  unfold isWanted Wanted
  cases fs.look current (walked.below names) with
  | error fault => simp [bind, Except.bind]
  | ok found? =>
    cases found? with
    | none => simp [bind, Except.bind, pure, Except.pure]
    | some found =>
      obtain ⟨place, entry⟩ := found
      cases entry <;> simp [bind, Except.bind, pure, Except.pure]

theorem isWanted_isOk {fs : FileSystem} {only : Bool} {walked : Path} {rest : List GlobPart}
    {names : List String} : (∃ b, fs.isWanted current only walked rest names = .ok b) ↔
      ∃ found, fs.look current (walked.below names) = .ok found := by
  refine bind_isOk_iff fun found? => ?_
  rcases found? with _ | ⟨place, _ | bytes⟩ <;> exact ⟨_, rfl⟩

theorem mem_stepsOf {fs : FileSystem} {only : Bool} {walked : Path} {rest : List GlobPart}
    {part : GlobPart} {found? : Option (Location × Entry)} {steps : List (List String)}
    (look : fs.look current walked = .ok found?)
    (h : fs.stepsOf current only walked rest (found?.map (·.1)) part = .ok steps)
    (step : List String) : step ∈ steps ↔ StepsTo fs current only walked rest part step := by
  -- what the walk has led to, for the components that list it
  have listed : ∀ {α : Type} (list : Location → List α) (x : α),
      x ∈ (found?.map (·.1)).elim [] list ↔
        ∃ place entry, fs.look current walked = .ok (some (place, entry)) ∧ x ∈ list place := by
    intro α list x
    rw [look]
    cases found? with
    | none => simp
    | some found =>
      obtain ⟨place, entry⟩ := found
      simp
  cases part with
  | directories =>
    cases h
    rw [listed]
    constructor
    · rintro ⟨place, entry, leads, mem⟩
      exact .directories leads mem
    · rintro ⟨leads, mem⟩
      exact ⟨_, _, leads, mem⟩
  | back =>
    cases h
    rw [List.mem_singleton]
    constructor
    · rintro rfl
      exact .back
    · rintro ⟨⟩
      rfl
  | name component =>
    rw [mem_filterM h, List.mem_singleton, isWanted_eq_true]
    constructor
    · rintro ⟨rfl, wanted⟩
      exact .name wanted
    · intro steps
      cases steps with
      | name wanted => exact ⟨rfl, wanted⟩
  | wild items =>
    rw [mem_filterM h, isWanted_eq_true, List.mem_map]
    constructor
    · rintro ⟨⟨name, mem, rfl⟩, wanted⟩
      obtain ⟨mem, fits⟩ := List.mem_filter.mp mem
      obtain ⟨place, entry, leads, mem⟩ := (listed _ _).mp mem
      exact .wild leads mem fits wanted
    · intro steps
      cases steps with
      | wild leads mem fits wanted =>
        have here := (listed fs.children _).mpr ⟨_, _, leads, mem⟩
        exact ⟨⟨_, List.mem_filter.mpr ⟨here, fits⟩, rfl⟩, wanted⟩

theorem mem_select {fs : FileSystem} {only : Bool} {walked : Path} {parts : List GlobPart}
    {found : List (List String)} (h : fs.select current walked only parts = .ok found)
    (names : List String) : names ∈ found ↔ Finds fs current only walked parts names := by
  induction parts generalizing walked found names with
  | nil =>
    cases h
    rw [List.mem_singleton]
    constructor
    · rintro rfl
      exact .here
    · rintro ⟨⟩
      rfl
  | cons part rest ih =>
    rw [select_cons] at h
    obtain ⟨found?, look, h⟩ := bind_eq_ok.mp h
    obtain ⟨steps, stepped, h⟩ := bind_eq_ok.mp h
    obtain ⟨lists, followed, h⟩ := bind_eq_ok.mp h
    cases h
    have mem_steps := mem_stepsOf look stepped
    -- a name is found behind one of the steps, in the list of what is found behind it
    rw [List.mem_flatten]
    constructor
    · rintro ⟨list, isList, mem⟩
      obtain ⟨step, isStep, h⟩ := exists_of_mapM_eq_ok followed isList
      obtain ⟨below, selected, h⟩ := bind_eq_ok.mp h
      cases h
      obtain ⟨names, here, rfl⟩ := List.mem_map.mp mem
      exact .step ((mem_steps step).mp isStep) ((ih selected names).mp here)
    · intro finds
      cases finds with
      | @step _ _ _ step below isStep finds =>
        obtain ⟨list, isList, h⟩ := mem_of_mapM_eq_ok followed step ((mem_steps step).mpr isStep)
        obtain ⟨found, selected, h⟩ := bind_eq_ok.mp h
        cases h
        exact ⟨_, isList, List.mem_map_of_mem ((ih selected below).mpr finds)⟩

/-! ## Searches in a larger file system -/

section

variable {written : List Location} {fs g : FileSystem} (sound : fs.Sound) (sound' : g.Sound)
  (grown : Grown written fs g)

/-- What lies in a directory is told by the places alone. -/
theorem children_eq (fs : FileSystem) (place : Location) :
    fs.children place = fs.places.filterMap fun p =>
      if p.length = place.length + 1 && place.isPrefixOf p then p.getLast? else none := by
  unfold children places
  rw [List.filterMap_map]
  rfl

/-- A directory below another one, and the names that lead to it. -/
theorem mem_directoriesBelow {fs : FileSystem} {place : Location} {step : List String} :
    step ∈ fs.directoriesBelow place ↔
      step = [] ∨ step ≠ [] ∧ (place ++ step, Entry.directory) ∈ fs.entries := by
  unfold directoriesBelow
  rw [List.mem_cons, List.mem_filterMap]
  refine or_congr_right ⟨?_, ?_⟩
  · rintro ⟨⟨p, entry⟩, mem, h⟩
    dsimp only at h
    split at h
    · rename_i below
      simp only [Bool.and_eq_true, decide_eq_true_eq] at below
      -- a directory further down, whose place begins with the one above
      obtain ⟨⟨rfl, pre⟩, longer⟩ := below
      obtain ⟨names, rfl⟩ := List.isPrefixOf_iff_prefix.mp pre
      rw [List.drop_left] at h
      cases h
      refine ⟨?_, mem⟩
      rintro rfl
      simp at longer
    · cases h
  · rintro ⟨ne, mem⟩
    refine ⟨_, mem, ?_⟩
    have longer : 0 < step.length := List.length_pos_iff.mpr ne
    simp [longer]

theorem child_eq_some {place p : Location} {name : String} :
    (if p.length = place.length + 1 && place.isPrefixOf p then p.getLast? else none) = some name ↔
      p = place ++ [name] := by
  constructor
  · intro h
    split at h
    · rename_i below
      simp only [Bool.and_eq_true, decide_eq_true_eq] at below
      obtain ⟨length, pre⟩ := below
      obtain ⟨names, rfl⟩ := List.isPrefixOf_iff_prefix.mp pre
      rw [List.length_append] at length
      obtain ⟨last, rfl⟩ := List.length_eq_one_iff.mp (show names.length = 1 by omega)
      rw [List.getLast?_concat] at h
      cases h
      rfl
    · cases h
  · rintro rfl
    simp

theorem mem_children_iff {fs : FileSystem} {place : Location} {name : String} :
    name ∈ fs.children place ↔ place ++ [name] ∈ fs.places := by
  rw [children_eq, List.mem_filterMap]
  constructor
  · rintro ⟨p, mem, child⟩
    rwa [← child_eq_some.mp child]
  · exact fun mem => ⟨_, mem, child_eq_some.mpr rfl⟩

theorem nodup_children {fs : FileSystem} (once : fs.places.Nodup) (place : Location) :
    (fs.children place).Nodup := by
  rw [children_eq]
  refine List.Pairwise.filterMap _ (fun p q apart name child name' child' same => apart ?_) once
  rw [child_eq_some.mp child, child_eq_some.mp child', same]

include sound in
theorem mem_directoriesBelow_iff {place : Location} {step : List String} :
    step ∈ fs.directoriesBelow place ↔
      step = [] ∨ step ≠ [] ∧ fs.get? (place ++ step) = some .directory := by
  rw [mem_directoriesBelow]
  refine or_congr_right (and_congr_right fun ne => ?_)
  rw [sound.mem_entries_iff]
  exact and_iff_right (by simp [ne])

include grown in
theorem Wanted.later {only : Bool} {walked : Path} {rest : List GlobPart} {names : List String}
    (h : Wanted fs current only walked rest names) : Wanted g current only walked rest names := by
  obtain ⟨place, entry, leads, kind⟩ := h
  obtain ⟨entry', leads, same⟩ := grown.look leads
  exact ⟨place, entry', leads, kind.imp_left same.mpr⟩

include sound sound' grown in
theorem StepsTo.later {only : Bool} {walked : Path} {rest : List GlobPart} {part : GlobPart}
    {step : List String} (h : StepsTo fs current only walked rest part step) :
    StepsTo g current only walked rest part step := by
  cases h with
  | directories leads mem =>
    obtain ⟨entry', leads, -⟩ := grown.look leads
    refine .directories leads ((mem_directoriesBelow_iff sound').mpr ?_)
    refine ((mem_directoriesBelow_iff sound).mp mem).imp_right fun there => ?_
    exact ⟨there.1, grown.directory there.2⟩
  | back => exact .back
  | name wanted => exact .name (wanted.later grown)
  | wild leads mem fits wanted =>
    obtain ⟨entry', leads, -⟩ := grown.look leads
    have mem := mem_children_iff.mpr (grown.places.subset (mem_children_iff.mp mem))
    exact .wild leads mem fits (wanted.later grown)

include sound sound' grown in
/-- What is found is found later. -/
theorem Finds.later {only : Bool} {walked : Path} {parts : List GlobPart} {names : List String}
    (h : Finds fs current only walked parts names) : Finds g current only walked parts names := by
  induction h with
  | here => exact .here
  | step first _ ih => exact .step (first.later sound sound' grown) ih

include grown in
/-- If the steps of a component can be told in the larger file system, then in the smaller one as
well: whatever is looked at there is looked at in the larger one. -/
theorem stepsOf_isOk {only : Bool} {walked : Path} {rest : List GlobPart} {part : GlobPart}
    {found? found?' : Option (Location × Entry)} {steps' : List (List String)}
    (look : fs.look current walked = .ok found?) (look' : g.look current walked = .ok found?')
    (h : g.stepsOf current only walked rest (found?'.map (·.1)) part = .ok steps') :
    ∃ steps, fs.stepsOf current only walked rest (found?.map (·.1)) part = .ok steps := by
  have checks : ∀ {names steps}, names.filterM (g.isWanted current only walked rest) = .ok steps →
      ∀ some_names : List (List String), some_names ⊆ names →
        ∃ steps, some_names.filterM (fs.isWanted current only walked rest) = .ok steps := by
    intro names steps checked some_names sub
    refine ⟨_, filterM_eq_ok.mpr ⟨fun x mem => ?_, rfl⟩⟩
    have there := (filterM_eq_ok.mp checked).1 x (sub mem)
    rw [isWanted_isOk] at there ⊢
    exact grown.look_isOk there
  cases part with
  | directories => exact ⟨_, rfl⟩
  | back => exact ⟨_, rfl⟩
  | name component => exact checks h _ (List.Subset.refl _)
  | wild items =>
    refine checks h _ fun names mem => ?_
    obtain ⟨name, here, rfl⟩ := List.mem_map.mp mem
    obtain ⟨here, fits⟩ := List.mem_filter.mp here
    refine List.mem_map_of_mem (List.mem_filter.mpr ⟨?_, fits⟩)
    cases found? with
    | none => cases here
    | some found =>
      -- the walk has led to the same place, which has lost none of its children
      obtain ⟨place, entry⟩ := found
      obtain ⟨entry', leads, -⟩ := grown.look look
      rw [leads] at look'
      cases look'
      exact mem_children_iff.mpr (grown.places.subset (mem_children_iff.mp here))

include sound sound' grown in
/-- A search that comes to an end in the larger file system does so in the smaller one. -/
theorem select_isOk {only : Bool} {walked : Path} {parts : List GlobPart}
    (h : ∃ found, g.select current walked only parts = .ok found) :
    ∃ found, fs.select current walked only parts = .ok found := by
  induction parts generalizing walked with
  | nil => exact ⟨_, rfl⟩
  | cons part rest ih =>
    obtain ⟨found, h⟩ := h
    rw [select_cons] at h
    obtain ⟨found?', look', h⟩ := bind_eq_ok.mp h
    obtain ⟨steps', stepped', h⟩ := bind_eq_ok.mp h
    obtain ⟨lists', followed', -⟩ := bind_eq_ok.mp h
    obtain ⟨found?, look⟩ := grown.look_isOk ⟨_, look'⟩
    obtain ⟨steps, stepped⟩ := stepsOf_isOk grown look look' stepped'
    -- every step is one of the larger file system, where the search behind it has come to an end
    have followed : ∃ lists, (steps.mapM fun step => do
        let below ← fs.select current (walked.below step) only rest
        return below.map (step ++ ·)) = .ok lists := by
      refine mapM_isOk fun step mem => ?_
      have later := ((mem_stepsOf look stepped step).mp mem).later sound sound' grown
      obtain ⟨list, -, h⟩ :=
        mem_of_mapM_eq_ok followed' step ((mem_stepsOf look' stepped' step).mpr later)
      obtain ⟨below', selected', -⟩ := bind_eq_ok.mp h
      obtain ⟨below, selected⟩ := ih ⟨_, selected'⟩
      exact ⟨_, bind_eq_ok.mpr ⟨below, selected, rfl⟩⟩
    obtain ⟨lists, followed⟩ := followed
    refine ⟨lists.flatten, ?_⟩
    rw [select_cons]
    exact bind_eq_ok.mpr ⟨_, look, bind_eq_ok.mpr ⟨_, stepped, bind_eq_ok.mpr ⟨_, followed, rfl⟩⟩⟩

/-! ## Old files -/

include grown in
/-- Where a path leads forth from a directory, it ends below it; and if anything lay there before,
the path has led there before. -/
theorem look_below {b : Path} {start place : Location} {done : List String} {entry : Entry}
    (sound : fs.Sound) (leads : fs.follow current b = .ok start) (forth : ".." ∉ done)
    (h : g.look current (b.below done) = .ok (some (place, entry))) :
    place = start ++ done ∧ ∀ entry', fs.get? (start ++ done) = some entry' →
      fs.look current (b.below done) = .ok (some (start ++ done, entry')) := by
  obtain ⟨found, -⟩ := look_eq_some.mp h
  have short := short_of_follow found
  rw [follow_below (grown.follow leads) short] at found
  have same := locate_forth found forth
  refine ⟨same, fun entry' there => look_eq_some.mpr ⟨?_, there⟩⟩
  rw [follow_below leads short]
  exact sound.locate (by rw [there]; rfl) forth (locate_short found)

theorem below_nil (b : Path) : b.below [] = b := by
  unfold Path.below
  rw [List.append_nil]

theorem below_below (b : Path) (names more : List String) :
    (b.below names).below more = b.below (names ++ more) := by
  unfold Path.below
  rw [List.append_assoc]

include grown in
/-- Names that lead to something that was there before were wanted before. -/
theorem Wanted.earlier {b : Path} {start : Location} {only : Bool} {rest : List GlobPart}
    {done step : List String} {entry : Entry} (sound : fs.Sound)
    (leads : fs.follow current b = .ok start) (forth : ".." ∉ done ++ step)
    (there : fs.get? (start ++ (done ++ step)) = some entry)
    (h : Wanted g current only (b.below done) rest step) :
    Wanted fs current only (b.below done) rest step := by
  obtain ⟨place, entry', look, kind⟩ := h
  rw [below_below] at look
  obtain ⟨rfl, earlier⟩ := look_below grown sound leads forth look
  unfold Wanted
  rw [below_below]
  refine ⟨_, entry, earlier entry there, ?_⟩
  cases entry with
  | directory => exact .inl rfl
  | file bytes =>
    -- a file is no directory now either, so it is wanted as a file
    refine .inr (kind.resolve_left ?_)
    rintro rfl
    obtain ⟨bytes', now⟩ := grown.file there
    rw [(look_eq_some.mp look).2] at now
    cases now

include sound sound' grown in
/-- A step forth to something that was there before could be made before. -/
theorem StepsTo.earlier {b : Path} {start : Location} {only : Bool} {rest : List GlobPart}
    {part : GlobPart} {done step : List String} {entry : Entry}
    (leads : fs.follow current b = .ok start)
    (h : StepsTo g current only (b.below done) rest part step) (forth : part ≠ .back)
    (named : ".." ∉ done ++ step) (there : fs.get? (start ++ (done ++ step)) = some entry) :
    StepsTo fs current only (b.below done) rest part step := by
  -- where the step is made from was there before, since something below it was
  have walked : ∃ entry', fs.get? (start ++ done) = some entry' := by
    by_cases last : step = []
    · rw [last, List.append_nil] at there
      exact ⟨_, there⟩
    · rw [← List.append_assoc] at there
      exact ⟨.directory, sound.directory_of_append last (by rw [there]; rfl)⟩
  have look_earlier : ∀ {place found}, g.look current (b.below done) = .ok (some (place, found)) →
      place = start ++ done ∧
        ∃ entry', fs.look current (b.below done) = .ok (some (place, entry')) := by
    intro place found look
    obtain ⟨rfl, earlier⟩ := look_below grown sound leads
      (fun mem => named (List.mem_append_left _ mem)) look
    obtain ⟨entry', here⟩ := walked
    exact ⟨rfl, entry', earlier entry' here⟩
  cases h with
  | back => exact absurd rfl forth
  | name wanted => exact .name (wanted.earlier grown sound leads named there)
  | directories look mem =>
    obtain ⟨rfl, entry', earlier⟩ := look_earlier look
    refine .directories earlier ((mem_directoriesBelow_iff sound).mpr ?_)
    refine ((mem_directoriesBelow_iff sound').mp mem).imp_right fun ⟨ne, now⟩ => ⟨ne, ?_⟩
    rw [List.append_assoc] at now ⊢
    cases entry with
    | directory => exact there
    | file bytes =>
      -- a file has not become a directory
      obtain ⟨bytes', file⟩ := grown.file there
      rw [now] at file
      cases file
  | wild look mem fits wanted =>
    obtain ⟨rfl, entry', earlier⟩ := look_earlier look
    refine .wild earlier (mem_children_iff.mpr ?_) fits
      (wanted.earlier grown sound leads named there)
    rw [mem_places_iff (by simp), List.append_assoc, there]
    rfl

include sound sound' grown in
/-- A file that is found now and was there before was found before, by a pattern that leads forth. -/
theorem Finds.earlier {b walked : Path} {start : Location} {only : Bool} {parts : List GlobPart}
    {names done : List String} (leads : fs.follow current b = .ok start)
    (h : Finds g current only walked parts names) (isWalked : walked = b.below done)
    (forth : ∀ part ∈ parts, part ≠ .back) (named : ".." ∉ done ++ names) {bytes : List UInt8}
    (file : fs.get? (start ++ (done ++ names)) = some (.file bytes)) :
    Finds fs current only walked parts names := by
  induction h generalizing done with
  | here => exact .here
  | @step walked part rest step below first _ ih =>
    rw [← List.append_assoc done] at named file
    -- what the step leads to is the file, or a directory above it
    have there : ∃ entry, fs.get? (start ++ (done ++ step)) = some entry := by
      by_cases last : below = []
      · rw [last, List.append_nil] at file
        exact ⟨_, file⟩
      · rw [← List.append_assoc] at file
        exact ⟨_, sound.directory_of_append last (by rw [file]; rfl)⟩
    obtain ⟨entry, there⟩ := there
    subst isWalked
    exact .step
      (first.earlier sound sound' grown leads (forth part List.mem_cons_self)
        (fun mem => named (List.mem_append_left _ mem)) there)
      (ih (below_below ..) (fun part mem => forth part (List.mem_cons_of_mem _ mem)) named file)

end

/-- Where all names are proper, a pattern that leads forth finds no way back. -/
theorem Finds.forth {fs : FileSystem} (proper : ∀ place ∈ fs.places, ∀ name ∈ place, Path.IsName name)
    {only : Bool} {walked : Path} {parts : List GlobPart} {names : List String}
    (h : Finds fs current only walked parts names)
    (forth : ∀ part ∈ parts, part ≠ .back ∧ part ≠ .name "..") : ".." ∉ names := by
  have back : ¬ Path.IsName ".." := fun isName => isName.2.2.1 rfl
  induction h with
  | here => exact List.not_mem_nil
  | @step walked part rest step below first _ ih =>
    have here := forth part List.mem_cons_self
    rw [List.mem_append, not_or]
    refine ⟨?_, ih fun part mem => forth part (List.mem_cons_of_mem _ mem)⟩
    -- only what is spelt in the pattern can lead back; what is listed has a proper name
    cases first with
    | back => exact absurd rfl here.1
    | @name component _ =>
      rw [List.mem_singleton]
      rintro rfl
      exact here.2 rfl
    | wild _ mem _ _ =>
      have named := proper _ (mem_children_iff.mp mem)
      intro isBack
      exact back (named ".." (List.mem_append_right _ isBack))
    | directories _ mem =>
      intro isBack
      rcases mem_directoriesBelow.mp mem with rfl | ⟨_, listed⟩
      · cases isBack
      · have named := proper _ (List.mem_map_of_mem listed)
        exact back (named ".." (List.mem_append_right _ isBack))

/-! ## Whole searches -/

theorem isFile_eq_true {fs : FileSystem} {p : Path} :
    (do match ← fs.look current p with
        | some (_, .file _) => return true
        | _ => return false : Except Fault Bool) = .ok true ↔
      ∃ place bytes, fs.look current p = .ok (some (place, .file bytes)) := by
  cases fs.look current p with
  | error fault => simp [bind, Except.bind]
  | ok found? =>
    cases found? with
    | none => simp [bind, Except.bind, pure, Except.pure]
    | some found =>
      obtain ⟨place, entry⟩ := found
      cases entry <;> simp [bind, Except.bind, pure, Except.pure]

theorem isFile_isOk {fs : FileSystem} {p : Path} :
    (∃ b, (do match ← fs.look current p with
        | some (_, .file _) => return true
        | _ => return false : Except Fault Bool) = .ok b) ↔ ∃ found, fs.look current p = .ok found := by
  refine bind_isOk_iff fun found? => ?_
  rcases found? with _ | ⟨place, _ | bytes⟩ <;> exact ⟨_, rfl⟩

/-- A search that comes to an end has looked where it starts from. -/
theorem exists_look_of_find {fs : FileSystem} {b : Path} {only : Bool} {parts : List GlobPart}
    {found : List String} (h : fs.find current b only parts = .ok found) :
    ∃ found?, fs.look current b = .ok found? := by
  unfold find at h
  obtain ⟨found?, look, -⟩ := bind_eq_ok.mp h
  exact ⟨found?, look⟩

/-- A search that does not start from a directory finds nothing. -/
theorem find_eq_nil {fs : FileSystem} {b : Path} {only : Bool} {parts : List GlobPart}
    {found? : Option (Location × Entry)} (look : fs.look current b = .ok found?)
    (apart : ∀ place, found? ≠ some (place, .directory)) :
    fs.find current b only parts = .ok [] := by
  unfold find
  rw [look]
  cases found? with
  | none => rfl
  | some found =>
    obtain ⟨place, entry⟩ := found
    cases entry with
    | directory => exact absurd rfl (apart place)
    | file bytes => rfl

theorem find_eq_ok {fs : FileSystem} {b : Path} {only : Bool} {parts : List GlobPart}
    {start : Location} (look : fs.look current b = .ok (some (start, .directory)))
    {texts : List String} :
    fs.find current b only parts = .ok texts ↔
      ∃ found files, fs.select current b only parts = .ok found ∧
        (found.filterM fun names => do
          match ← fs.look current (b.below names) with
          | some (_, .file _) => return true
          | _ => return false) = .ok files ∧
        texts = files.map "/".intercalate := by
  unfold find
  rw [look]
  change (fs.select current b only parts >>= _) = _ ↔ _
  rw [bind_eq_ok]
  constructor
  · rintro ⟨found, selected, h⟩
    obtain ⟨files, filtered, h⟩ := bind_eq_ok.mp h
    cases h
    exact ⟨found, files, selected, filtered, rfl⟩
  · rintro ⟨found, files, selected, filtered, rfl⟩
    exact ⟨found, selected, bind_eq_ok.mpr ⟨files, filtered, rfl⟩⟩

theorem mem_find {fs : FileSystem} {b : Path} {only : Bool} {parts : List GlobPart}
    {start : Location} (look : fs.look current b = .ok (some (start, .directory)))
    {texts : List String} (h : fs.find current b only parts = .ok texts) (text : String) :
    text ∈ texts ↔ ∃ names, Finds fs current only b parts names ∧
      (∃ place bytes, fs.look current (b.below names) = .ok (some (place, .file bytes))) ∧
      text = "/".intercalate names := by
  obtain ⟨found, files, selected, filtered, rfl⟩ := (find_eq_ok look).mp h
  simp only [List.mem_map, mem_filterM filtered, isFile_eq_true, mem_select selected]
  constructor
  · rintro ⟨names, ⟨finds, file⟩, rfl⟩
    exact ⟨names, finds, file, rfl⟩
  · rintro ⟨names, finds, file, rfl⟩
    exact ⟨names, ⟨finds, file⟩, rfl⟩

/-- What a pattern asks for: whether it asks for directories only, and its components. -/
def readPattern (pattern : String) : Except GlobProblem (Bool × List GlobPart) := do
  if pattern = "" then throw .empty
  let p := Path.ofText pattern
  let endsInSlash := pattern.toList.getLast? = some '/'
  if p.isAbsolute then throw .absolute
  if p.parts.isEmpty then throw (if endsInSlash then .onlySlash else .noComponents)
  return (endsInSlash, ← p.parts.mapM GlobPart.read)

/-- Only the search itself looks at the files. -/
theorem glob_eq (fs : FileSystem) (current : Location) (b : Path) (pattern : String) :
    fs.glob current b pattern = (readPattern pattern).bind fun asked =>
      ((fs.find current b asked.1 asked.2).mapError GlobProblem.files).map fun found =>
        found.eraseDups.mergeSort fun a b => a ≤ b := by
  unfold glob readPattern
  by_cases empty : pattern = ""
  · rw [if_pos empty, if_pos empty]
    rfl
  rw [if_neg empty, if_neg empty]
  dsimp only
  by_cases absolute : (Path.ofText pattern).isAbsolute
  · rw [if_pos absolute, if_pos absolute]
    rfl
  rw [if_neg absolute, if_neg absolute]
  by_cases none_left : (Path.ofText pattern).parts.isEmpty
  · rw [if_pos none_left, if_pos none_left]
    rfl
  rw [if_neg none_left, if_neg none_left]
  cases (Path.ofText pattern).parts.mapM GlobPart.read with
  | error problem => rfl
  | ok parts =>
    -- once the pattern is read, only the search can fail; sorting does not
    have sorts : ∀ found : Except Fault (List String),
        (found.mapError GlobProblem.files >>= fun found =>
          pure (found.eraseDups.mergeSort fun a b => a ≤ b)) =
        (found.mapError GlobProblem.files).map fun found =>
          found.eraseDups.mergeSort fun a b => a ≤ b := by
      intro found
      cases found <;> rfl
    exact sorts _

theorem glob_eq_ok {fs : FileSystem} {b : Path} {pattern : String} {names : List String} :
    fs.glob current b pattern = .ok names ↔
      ∃ asked found, readPattern pattern = .ok asked ∧
        fs.find current b asked.1 asked.2 = .ok found ∧
        names = found.eraseDups.mergeSort fun a b => a ≤ b := by
  rw [glob_eq]
  cases readPattern pattern with
  | error problem => simp [Except.bind]
  | ok asked =>
    cases found : fs.find current b asked.1 asked.2 with
    | error fault => simp [Except.bind, Except.mapError, Except.map, found]
    | ok found => simp [Except.bind, Except.mapError, Except.map, found, eq_comm]

theorem ascending_mergeSort {names : List String} (once : names.Nodup) :
    (names.mergeSort fun a b => a ≤ b).Pairwise (· < ·) := by
  have ordered : (names.mergeSort fun a b => a ≤ b).Pairwise fun a b => decide (a ≤ b) := by
    refine List.pairwise_mergeSort ?_ ?_ _
    · intro a b c first second
      simp only [decide_eq_true_eq] at first second ⊢
      exact String.le_trans first second
    · intro a b
      simpa using String.le_total a b
  have once' : (names.mergeSort fun a b => a ≤ b).Nodup :=
    (List.mergeSort_perm _ _).nodup_iff.mpr once
  refine (ordered.and once').imp fun {a b} ⟨le, ne⟩ => ?_
  exact String.not_le.mp fun ge => ne (String.le_antisymm (of_decide_eq_true le) ge)

/-- Names in ascending order are given by what is among them. -/
theorem eq_of_ascending {names later : List String} (ascending : names.Pairwise (· < ·))
    (ascending' : later.Pairwise (· < ·)) (same : ∀ name, name ∈ names ↔ name ∈ later) :
    names = later := by
  have once := ascending.imp fun {a b} (lt : a < b) => String.ne_of_lt lt
  have once' := ascending'.imp fun {a b} (lt : a < b) => String.ne_of_lt lt
  refine List.Perm.eq_of_pairwise (fun a b _ _ lt gt => ?_) ascending ascending' ?_
  · exact absurd gt (String.lt_asymm lt)
  · exact (List.perm_ext_iff_of_nodup once once').mpr same

/-- The names that a search gives stand in ascending order, each of them once. -/
theorem glob_ascending {fs : FileSystem} {b : Path} {pattern : String} {names : List String}
    (h : fs.glob current b pattern = .ok names) : names.Pairwise (· < ·) := by
  obtain ⟨-, found, -, -, rfl⟩ := glob_eq_ok.mp h
  exact ascending_mergeSort (nodup_eraseDups found)

theorem filter_glob_eq {fs g : FileSystem} {b : Path} {pattern : String} {names later : List String}
    (h : fs.glob current b pattern = .ok names) (h' : g.glob current b pattern = .ok later)
    (wanted : String → Bool) (same : ∀ name, wanted name = true → (name ∈ names ↔ name ∈ later)) :
    names.filter wanted = later.filter wanted := by
  refine eq_of_ascending ((glob_ascending h).filter wanted) ((glob_ascending h').filter wanted) ?_
  intro name
  simp only [List.mem_filter]
  exact and_congr_left (same name)

/-- The components of a pattern are those of the path that it spells. -/
theorem readPattern_parts {pattern : String} {asked : Bool × List GlobPart}
    (h : readPattern pattern = .ok asked) :
    (Path.ofText pattern).parts.mapM GlobPart.read = .ok asked.2 := by
  unfold readPattern at h
  split at h
  · cases h
  dsimp only at h
  split at h
  · cases h
  split at h
  · cases h
  obtain ⟨parts, read, h⟩ := bind_eq_ok.mp h
  cases h
  exact read

/-- A pattern without `..` leads forth in every component. -/
theorem readPattern_forth {pattern : String} {asked : Bool × List GlobPart}
    (h : readPattern pattern = .ok asked) (forth : ".." ∉ (Path.ofText pattern).parts) :
    ∀ part ∈ asked.2, part ≠ .back ∧ part ≠ .name ".." := by
  have read := readPattern_parts h
  intro part mem
  obtain ⟨component, isComponent, same⟩ := exists_of_mapM_eq_ok read mem
  have known : component ≠ ".." := by
    rintro rfl
    exact forth isComponent
  unfold GlobPart.read at same
  dsimp only at same
  rw [if_neg known] at same
  -- of the four kinds of components, only `..` itself is read as a way back
  split at same
  · cases same
    simp
  · split at same
    · cases same
    · split at same
      · cases same
        simp
      · cases same
        simpa using known

section

variable {written : List Location} {fs g : FileSystem} (sound : fs.Sound) (sound' : g.Sound)
  (grown : Grown written fs g) {b : Path} {pattern : String}

include sound sound' grown in
/-- A search in the larger file system finds more, and comes to no end that it did not have in the
smaller one. -/
theorem glob_subset {later : List String} (h : g.glob current b pattern = .ok later) :
    ∃ names, fs.glob current b pattern = .ok names ∧ names ⊆ later := by
  obtain ⟨asked, found', read, find', rfl⟩ := glob_eq_ok.mp h
  suffices finds : ∃ found, fs.find current b asked.1 asked.2 = .ok found ∧ found ⊆ found' by
    obtain ⟨found, find, sub⟩ := finds
    refine ⟨_, glob_eq_ok.mpr ⟨asked, found, read, find, rfl⟩, fun name mem => ?_⟩
    rw [List.mem_mergeSort, List.mem_eraseDups] at mem ⊢
    exact sub mem
  obtain ⟨found?, look⟩ := grown.look_isOk (exists_look_of_find find')
  -- a search from anything but a directory finds nothing
  by_cases directory : ∃ start, found? = some (start, .directory)
  · obtain ⟨start, rfl⟩ := directory
    obtain ⟨entry, look', same⟩ := grown.look look
    obtain rfl := same.mpr rfl
    obtain ⟨selected', files', select', filtered', rfl⟩ := (find_eq_ok look').mp find'
    obtain ⟨selected, select⟩ := select_isOk sound sound' grown ⟨_, select'⟩
    have finds_later : ∀ names ∈ selected, names ∈ selected' := fun names mem =>
      (mem_select select' names).mpr (((mem_select select names).mp mem).later sound sound' grown)
    have find : ∃ found, fs.find current b asked.1 asked.2 = .ok found := by
      refine ⟨_, (find_eq_ok look).mpr ⟨selected, _, select, filterM_eq_ok.mpr ⟨?_, rfl⟩, rfl⟩⟩
      intro names mem
      have checked := (filterM_eq_ok.mp filtered').1 names (finds_later names mem)
      rw [isFile_isOk] at checked ⊢
      exact grown.look_isOk checked
    obtain ⟨found, find⟩ := find
    refine ⟨found, find, fun text mem => ?_⟩
    obtain ⟨names, finds, ⟨place, bytes, file⟩, rfl⟩ := (mem_find look find text).mp mem
    obtain ⟨entry, file', same⟩ := grown.look file
    refine (mem_find look' find' _).mpr ⟨names, finds.later sound sound' grown, ?_, rfl⟩
    cases entry with
    | directory => cases same.mp rfl
    | file bytes' => exact ⟨place, bytes', file'⟩
  · refine ⟨[], find_eq_nil look fun start same => directory ⟨start, same⟩, List.nil_subset _⟩

include sound sound' grown in
/-- What a pattern that leads forth finds later only is a written file. -/
theorem glob_earlier {names later : List String} (h : fs.glob current b pattern = .ok names)
    (h' : g.glob current b pattern = .ok later) (there : fs.isDirectory current b = true)
    (forth : ".." ∉ (Path.ofText pattern).parts) {name : String} (mem : name ∈ later) :
    name ∈ names ∨ ∃ place ∈ written, g.follow current (b.join (.ofText name)) = .ok place := by
  obtain ⟨start, leads, directory⟩ := isDirectory_iff.mp there
  have look := look_eq_some.mpr ⟨leads, directory⟩
  have look' := look_eq_some.mpr ⟨grown.follow leads, grown.directory directory⟩
  obtain ⟨asked, found, read, find, rfl⟩ := glob_eq_ok.mp h
  obtain ⟨asked', found', read', find', rfl⟩ := glob_eq_ok.mp h'
  rw [read] at read'
  cases read'
  rw [List.mem_mergeSort, List.mem_eraseDups] at mem ⊢
  obtain ⟨parts, finds, ⟨place, bytes, file⟩, rfl⟩ := (mem_find look' find' name).mp mem
  have parts_forth := readPattern_forth read forth
  have named := finds.forth sound'.proper parts_forth
  obtain ⟨rfl, earlier⟩ := look_below grown sound leads named file
  obtain ⟨found_file, now⟩ := look_eq_some.mp file
  have ne : parts ≠ [] := by
    rintro rfl
    rw [List.append_nil, grown.directory directory] at now
    cases now
  by_cases isWritten : start ++ parts ∈ written
  · refine .inr ⟨_, isWritten, ?_⟩
    have proper := sound'.proper_of_isSome (show (g.get? (start ++ parts)).isSome by rw [now]; rfl)
    rw [Path.ofText_intercalate ne fun n mem => .inr (proper n (List.mem_append_right _ mem))]
    exact found_file
  · have before := (grown.apart _ isWritten bytes).mp now
    refine .inl ((mem_find look find _).mpr ⟨parts, ?_, ⟨_, bytes, earlier _ before⟩, rfl⟩)
    exact finds.earlier sound sound' grown leads (below_nil b).symm (fun part mem => (parts_forth part mem).1)
      named before

end

theorem isWanted_eq_error {fs : FileSystem} {only : Bool} {walked : Path} {rest : List GlobPart}
    {names : List String} {fault : Fault} (h : fs.isWanted current only walked rest names = .error fault) :
    fault.reason = .nameTooLong := by
  unfold isWanted at h
  rcases bind_eq_error.mp h with looked | ⟨found?, -, h⟩
  · obtain ⟨-, rfl⟩ := look_eq_error.mp looked
    rfl
  · split at h <;> cases h

/-- A search fails only over a name that is too long. -/
theorem select_eq_error {fs : FileSystem} {only : Bool} {walked : Path} {parts : List GlobPart}
    {fault : Fault} (h : fs.select current walked only parts = .error fault) :
    fault.reason = .nameTooLong := by
  induction parts generalizing walked with
  | nil => cases h
  | cons part rest ih =>
    rw [select_cons] at h
    rcases bind_eq_error.mp h with looked | ⟨found?, -, h⟩
    · obtain ⟨-, rfl⟩ := look_eq_error.mp looked
      rfl
    rcases bind_eq_error.mp h with stepped | ⟨steps, -, h⟩
    · cases part with
      | directories | back => cases stepped
      | name | wild =>
        obtain ⟨names, -, fails⟩ := exists_of_filterM_eq_error stepped
        exact isWanted_eq_error fails
    rcases bind_eq_error.mp h with followed | ⟨found, -, h⟩
    · obtain ⟨step, -, fails⟩ := exists_of_mapM_eq_error followed
      rcases bind_eq_error.mp fails with below | ⟨below, -, last⟩
      · exact ih below
      · cases last
    · cases h

theorem find_eq_error {fs : FileSystem} {b : Path} {only : Bool} {parts : List GlobPart}
    {fault : Fault} (h : fs.find current b only parts = .error fault) :
    fault.reason = .nameTooLong := by
  unfold find at h
  rcases bind_eq_error.mp h with looked | ⟨found?, -, h⟩
  · obtain ⟨-, rfl⟩ := look_eq_error.mp looked
    rfl
  split at h
  · rcases bind_eq_error.mp h with selected | ⟨found, -, h⟩
    · exact select_eq_error selected
    rcases bind_eq_error.mp h with filtered | ⟨files, -, h⟩
    · obtain ⟨names, -, fails⟩ := exists_of_filterM_eq_error filtered
      rcases bind_eq_error.mp fails with looked | ⟨found?, -, h⟩
      · obtain ⟨-, rfl⟩ := look_eq_error.mp looked
        rfl
      · split at h <;> cases h
    · cases h
  · cases h

/-- A pattern that cannot be searched for in one file system can be read in none, or the search for it
comes upon a name that is too long. -/
theorem glob_eq_error {fs : FileSystem} {b : Path} {pattern : String} {problem : GlobProblem}
    (h : fs.glob current b pattern = .error problem) :
    (∀ g : FileSystem, g.glob current b pattern = .error problem) ∨
      ∃ fault, problem = .files fault ∧ fault.reason = .nameTooLong := by
  rw [glob_eq] at h
  cases read : readPattern pattern with
  | error problem' =>
    rw [read] at h
    cases h
    left
    intro g
    rw [glob_eq, read]
    rfl
  | ok asked =>
    rw [read] at h
    cases found : fs.find current b asked.1 asked.2 with
    | ok names => simp [Except.bind, Except.mapError, Except.map, found] at h
    | error fault =>
      simp only [Except.bind, Except.mapError, Except.map, found, Except.error.injEq] at h
      exact .inr ⟨fault, h.symm, find_eq_error found⟩

end Branchwork.FileSystem
