import Branchwork.Proofs.FileSystem.Growth

/-!
# Making directories

`Ensures` says what becomes of the directories that a path asks for, case by case: each one is made,
is there already, or is refused, and where something above it is missing that comes first.

A path whose directories were made once asks for nothing more: where they all are, the second time
changes nothing. Where the first time was refused the path is stopped for good (`Stopped`), so the
second time is refused as well, and leaves everything as it is. The two refusals may differ, though.
The directories that the first time has made may lead the second time to another directory on the way,
and with `..` on the way also to another reason.

Main results:

* `Ensures.again` — what is there is not made again.
* `Ensures.stopped`, `Ensures.refused_again` — what was refused is refused again.
* `Ensures.sound`, `Ensures.grown` — what is made on the way.
-/

namespace Branchwork.FileSystem

variable {current : Location} {p : Path}

/-! ## Single directories -/

theorem makeDirectory_eq_ok {fs g : FileSystem} :
    fs.makeDirectory current p = .ok g ↔
      ∃ place, fs.follow current p = .ok place ∧ fs.get? place = none ∧
        g = fs.put place .directory := by
  unfold makeDirectory
  cases fs.follow current p with
  | error reason => simp
  | ok place =>
    dsimp only
    cases there : fs.get? place with
    | none =>
      simp only [Option.isSome_none, Bool.false_eq_true, if_false, Except.ok.injEq]
      constructor
      · rintro rfl
        exact ⟨place, rfl, there, rfl⟩
      · rintro ⟨_, rfl, -, rfl⟩
        rfl
    | some entry =>
      simp only [Option.isSome_some, if_true, reduceCtorEq, Except.ok.injEq, false_iff]
      rintro ⟨_, rfl, missing, -⟩
      rw [there] at missing
      cases missing

theorem makeDirectory_eq_error {fs : FileSystem} {reason : Reason} :
    fs.makeDirectory current p = .error reason ↔
      fs.follow current p = .error reason ∨
        ∃ place, fs.follow current p = .ok place ∧ (fs.get? place).isSome ∧
          reason = .alreadyThere := by
  unfold makeDirectory
  cases fs.follow current p with
  | error reason' => simp
  | ok place =>
    dsimp only
    cases there : fs.get? place with
    | none =>
      simp only [Option.isSome_none, Bool.false_eq_true, if_false, reduceCtorEq, Except.ok.injEq,
        false_or, false_iff]
      rintro ⟨_, rfl, found, -⟩
      rw [there] at found
      cases found
    | some entry =>
      simp only [Option.isSome_some, if_true, Except.error.injEq, reduceCtorEq, Except.ok.injEq,
        false_or]
      constructor
      · rintro rfl
        exact ⟨place, rfl, by rw [there]; rfl, rfl⟩
      · rintro ⟨_, -, -, rfl⟩
        rfl

theorem isDirectory_of_makeDirectory {fs g : FileSystem}
    (made : fs.makeDirectory current p = .ok g) : g.isDirectory current p = true := by
  obtain ⟨place, leads, missing, rfl⟩ := makeDirectory_eq_ok.mp made
  have ne : place ≠ [] := by
    rintro rfl
    cases missing
  exact isDirectory_iff.mpr ⟨place, (grown_put_directory missing).follow leads,
    get?_put_self fs ne _⟩

theorem makeDirectory_of_isDirectory {fs : FileSystem} (there : fs.isDirectory current p = true) :
    fs.makeDirectory current p = .error .alreadyThere := by
  obtain ⟨place, leads, entry⟩ := isDirectory_iff.mp there
  exact makeDirectory_eq_error.mpr (.inr ⟨place, leads, by rw [entry]; rfl, rfl⟩)

/-! ## All directories of a path -/

/-- The path below an anchor with the given names, the last one first. -/
def upward (anchor : Path.Anchor) (names : List String) : Path := ⟨anchor, names.reverse⟩

/-- What becomes of the directories of a path, with the files behind. -/
inductive Ensures (current : Location) (anchor : Path.Anchor) :
    FileSystem → List String → Option Fault → FileSystem → Prop
  | nothing {fs} : Ensures current anchor fs [] none fs
  | made {fs name above g} : fs.makeDirectory current (upward anchor (name :: above)) = .ok g →
      Ensures current anchor fs (name :: above) none g
  | there {fs name above} : fs.isDirectory current (upward anchor (name :: above)) = true →
      Ensures current anchor fs (name :: above) none fs
  | refused {fs name above reason} :
      fs.makeDirectory current (upward anchor (name :: above)) = .error reason →
      reason ≠ .missing → fs.isDirectory current (upward anchor (name :: above)) = false →
      Ensures current anchor fs (name :: above)
        (some ⟨reason, (upward anchor (name :: above)).text⟩) fs
  | aboveRefused {fs name above fault g} :
      fs.makeDirectory current (upward anchor (name :: above)) = .error .missing →
      Ensures current anchor fs above (some fault) g →
      Ensures current anchor fs (name :: above) (some fault) g
  | madeBelow {fs name above mid g} :
      fs.makeDirectory current (upward anchor (name :: above)) = .error .missing →
      Ensures current anchor fs above none mid →
      mid.makeDirectory current (upward anchor (name :: above)) = .ok g →
      Ensures current anchor fs (name :: above) none g
  | thereBelow {fs name above mid} :
      fs.makeDirectory current (upward anchor (name :: above)) = .error .missing →
      Ensures current anchor fs above none mid →
      mid.isDirectory current (upward anchor (name :: above)) = true →
      Ensures current anchor fs (name :: above) none mid
  | refusedBelow {fs name above mid reason} :
      fs.makeDirectory current (upward anchor (name :: above)) = .error .missing →
      Ensures current anchor fs above none mid →
      mid.makeDirectory current (upward anchor (name :: above)) = .error reason →
      mid.isDirectory current (upward anchor (name :: above)) = false →
      Ensures current anchor fs (name :: above)
        (some ⟨reason, (upward anchor (name :: above)).text⟩) mid

/-- The step to the next name of a path. -/
theorem ensureDirectoriesFrom_cons (fs : FileSystem) (current : Location) (anchor : Path.Anchor)
    (name : String) (above : List String) :
    fs.ensureDirectoriesFrom current anchor (name :: above) =
      match fs.makeDirectory current (upward anchor (name :: above)) with
      | .ok g => (none, g)
      | .error reason =>
        if reason = .missing then
          match fs.ensureDirectoriesFrom current anchor above with
          | (some fault, mid) => (some fault, mid)
          | (none, mid) =>
            match mid.makeDirectory current (upward anchor (name :: above)) with
            | .ok g => (none, g)
            | .error reason =>
              if mid.isDirectory current (upward anchor (name :: above)) then (none, mid)
              else (some ⟨reason, (upward anchor (name :: above)).text⟩, mid)
        else if fs.isDirectory current (upward anchor (name :: above)) then (none, fs)
        else (some ⟨reason, (upward anchor (name :: above)).text⟩, fs) := by
  rw [ensureDirectoriesFrom]
  unfold upward
  cases fs.makeDirectory current ⟨anchor, (name :: above).reverse⟩ with
  | ok g => rfl
  | error reason => cases reason <;> rfl

theorem ensures (current : Location) (anchor : Path.Anchor) (fs : FileSystem)
    (names : List String) :
    Ensures current anchor fs names (fs.ensureDirectoriesFrom current anchor names).1
      (fs.ensureDirectoriesFrom current anchor names).2 := by
  induction names with
  | nil => exact .nothing
  | cons name above ih =>
    rw [ensureDirectoriesFrom_cons]
    cases first : fs.makeDirectory current (upward anchor (name :: above)) with
    | ok g => exact .made first
    | error reason =>
      dsimp only
      by_cases missing : reason = .missing
      · rw [if_pos missing]
        rw [missing] at first
        rcases result : fs.ensureDirectoriesFrom current anchor above with ⟨_ | fault, mid⟩ <;>
          rw [result] at ih
        · dsimp only at ih ⊢
          -- the directories above are there now, so the last one is asked for once more
          cases second : mid.makeDirectory current (upward anchor (name :: above)) with
          | ok g => exact .madeBelow first ih second
          | error reason =>
            dsimp only
            split
            · exact .thereBelow first ih (by assumption)
            · exact .refusedBelow first ih second (by simp_all)
        · exact .aboveRefused first ih
      · rw [if_neg missing]
        split
        · exact .there (by assumption)
        · exact .refused first missing (by simp_all)

/-- The cases leave no choice. -/
theorem Ensures.eq {anchor : Path.Anchor} {fs g : FileSystem} {names : List String}
    {fault? : Option Fault} (h : Ensures current anchor fs names fault? g) :
    fs.ensureDirectoriesFrom current anchor names = (fault?, g) := by
  induction h with
  | nothing => rfl
  | made first => rw [ensureDirectoriesFrom_cons, first]
  | there here =>
    -- a directory that is there is refused, and the refusal is forgiven
    rw [ensureDirectoriesFrom_cons, makeDirectory_of_isDirectory here]
    dsimp only
    rw [if_neg (by decide), if_pos here]
  | refused first known apart =>
    rw [ensureDirectoriesFrom_cons, first]
    dsimp only
    rw [if_neg known, if_neg (by simp [apart])]
  | aboveRefused first _ ih =>
    rw [ensureDirectoriesFrom_cons, first, ih]
    rfl
  | madeBelow first _ second ih =>
    rw [ensureDirectoriesFrom_cons, first, ih]
    dsimp only
    rw [if_pos rfl, second]
  | thereBelow first _ here ih =>
    rw [ensureDirectoriesFrom_cons, first, ih]
    dsimp only
    rw [if_pos rfl, makeDirectory_of_isDirectory here]
    dsimp only
    rw [if_pos here]
  | refusedBelow first _ second apart ih =>
    rw [ensureDirectoriesFrom_cons, first, ih]
    dsimp only
    rw [if_pos rfl, second]
    dsimp only
    rw [if_neg (by simp [apart])]

/-! ## What is made -/

theorem grown_of_makeDirectory {fs g : FileSystem} (made : fs.makeDirectory current p = .ok g) :
    Grown [] fs g := by
  obtain ⟨place, -, missing, rfl⟩ := makeDirectory_eq_ok.mp made
  exact grown_put_directory missing

theorem Sound.makeDirectory {fs g : FileSystem} (sound : fs.Sound)
    (here : fs.get? current = some .directory) (proper : p.Proper)
    (made : fs.makeDirectory current p = .ok g) : g.Sound := by
  obtain ⟨place, leads, missing, rfl⟩ := makeDirectory_eq_ok.mp made
  exact sound.put (sound.room here proper leads (by simp [missing])) _

theorem upward_proper {anchor : Path.Anchor} {names : List String}
    (proper : ∀ name ∈ names, name = ".." ∨ Path.IsName name) : (upward anchor names).Proper :=
  fun name mem => proper name (List.mem_reverse.mp mem)

theorem Ensures.grown {anchor : Path.Anchor} {fs g : FileSystem} {names : List String}
    {fault? : Option Fault} (h : Ensures current anchor fs names fault? g) : Grown [] fs g := by
  induction h with
  | nothing | there | refused => exact .refl _ _
  | made first => exact grown_of_makeDirectory first
  | aboveRefused _ _ ih | thereBelow _ _ _ ih | refusedBelow _ _ _ _ ih => exact ih
  | madeBelow _ _ second ih => exact ih.trans (grown_of_makeDirectory second)

theorem Ensures.sound {anchor : Path.Anchor} {fs g : FileSystem} {names : List String}
    {fault? : Option Fault} (h : Ensures current anchor fs names fault? g) (sound : fs.Sound)
    (here : fs.get? current = some .directory)
    (proper : ∀ name ∈ names, name = ".." ∨ Path.IsName name) : g.Sound := by
  induction h with
  | nothing | there | refused => exact sound
  | made first => exact sound.makeDirectory here (upward_proper proper) first
  | aboveRefused _ _ ih | thereBelow _ _ _ ih | refusedBelow _ _ _ _ ih =>
    exact ih fun n mem => proper n (List.mem_cons_of_mem _ mem)
  | madeBelow _ below second ih =>
    have mid := ih fun n mem => proper n (List.mem_cons_of_mem _ mem)
    exact mid.makeDirectory (below.grown.directory here) (upward_proper proper) second

/-- Directories that were asked for without a refusal are there. -/
theorem Ensures.isDirectory {anchor : Path.Anchor} {fs g : FileSystem} {names : List String}
    (h : Ensures current anchor fs names none g) (ne : names ≠ []) :
    g.isDirectory current (upward anchor names) = true := by
  cases h with
  | nothing => exact absurd rfl ne
  | made first => exact isDirectory_of_makeDirectory first
  | there here => exact here
  | madeBelow _ _ second => exact isDirectory_of_makeDirectory second
  | thereBelow _ _ here => exact here

/-- Directories that are there are not made again. -/
theorem Ensures.again {anchor : Path.Anchor} {fs g later : FileSystem} {names : List String}
    (h : Ensures current anchor fs names none g) (kept : Kept g later) :
    Ensures current anchor later names none later := by
  cases names with
  | nil => exact .nothing
  | cons name above => exact .there (kept.isDirectory (h.isDirectory (List.cons_ne_nil _ _)))

/-! ## Refusals -/

theorem upward_cons_parts (anchor : Path.Anchor) (name : String) (above : List String) :
    (upward anchor (name :: above)).parts = (upward anchor above).parts ++ [name] :=
  List.reverse_cons

theorem text_of_ne_nil (anchor : Path.Anchor) {names : List String} (ne : names ≠ []) :
    (⟨anchor, names⟩ : Path).text = anchor.text ++ "/".intercalate names := by
  unfold Path.text
  rw [if_neg (by simp [ne])]

/-- A path with one name more is longer. -/
theorem utf8ByteSize_upward_le (anchor : Path.Anchor) (name : String) {above : List String}
    (ne : above ≠ []) :
    (upward anchor above).text.utf8ByteSize ≤ (upward anchor (name :: above)).text.utf8ByteSize := by
  have some_names : above.reverse ≠ [] := by simpa using ne
  have here := text_of_ne_nil anchor some_names
  have below := text_of_ne_nil anchor (List.append_ne_nil_of_right_ne_nil above.reverse
    (List.cons_ne_nil name []))
  rw [String.intercalate_append_of_ne_nil some_names (List.cons_ne_nil _ _)] at below
  unfold upward
  rw [List.reverse_cons, here, below]
  simp only [String.utf8ByteSize_append]
  omega

/-- The last name of a path is followed from where those above it lead. -/
theorem follow_upward_cons {fs : FileSystem} {anchor : Path.Anchor} {name : String}
    {above : List String} (ne : above ≠ [])
    (short : (upward anchor (name :: above)).text.utf8ByteSize < pathLimit) :
    fs.follow current (upward anchor (name :: above)) =
      (fs.follow current (upward anchor above)).bind fun mid => fs.locate mid [name] := by
  have le := utf8ByteSize_upward_le anchor name ne
  rw [follow_of_short short, follow_of_short (by omega), upward_cons_parts, locate_append]
  rfl

/-- What is missing is missing on a path that is short enough. -/
theorem follow_eq_missing {fs : FileSystem}
    (refused : fs.makeDirectory current p = .error .missing) :
    fs.follow current p = .error .missing ∧ p.text.utf8ByteSize < pathLimit := by
  rcases makeDirectory_eq_error.mp refused with leads | ⟨_, -, -, other⟩
  · refine ⟨leads, ?_⟩
    by_contra long
    unfold follow at leads
    rw [if_pos (by omega)] at leads
    cases leads
  · cases other

/-- A path is stopped for good: something on its way stops it, or it leads to a file. The reason is
the one for which no directory can be made there. -/
inductive Stopped (fs : FileSystem) (current : Location) (p : Path) : Reason → Prop
  | onWay {reason} : fs.follow current p = .error reason → reason ≠ .missing →
      Stopped fs current p reason
  | file {place bytes} : fs.follow current p = .ok place → fs.get? place = some (.file bytes) →
      Stopped fs current p .alreadyThere

theorem stopped_iff {fs : FileSystem} {reason : Reason} : Stopped fs current p reason ↔
    fs.makeDirectory current p = .error reason ∧ reason ≠ .missing ∧
      fs.isDirectory current p = false := by
  have apart : (fs.isDirectory current p = false) ↔
      ∀ place, fs.follow current p = .ok place → fs.get? place ≠ some .directory := by
    rw [← Bool.not_eq_true, isDirectory_iff]
    simp
  rw [makeDirectory_eq_error, apart]
  constructor
  -- a path is stopped on the way or by a file at its end; neither is a directory
  · rintro (⟨refused, known⟩ | ⟨leads, there⟩)
    · exact ⟨.inl refused, known, fun place leads => by rw [refused] at leads; cases leads⟩
    · refine ⟨.inr ⟨_, leads, by rw [there]; rfl, rfl⟩, by decide, fun place leads' => ?_⟩
      rw [leads] at leads'
      cases leads'
      simp [there]
  · rintro ⟨refused | ⟨place, leads, found, rfl⟩, known, apart⟩
    · exact .onWay refused known
    · -- the end of the path is taken, and not by a directory
      cases there : fs.get? place with
      | none =>
        rw [there] at found
        cases found
      | some entry =>
        cases entry with
        | directory => exact absurd there (apart place leads)
        | file bytes => exact .file leads there

/-- What is stopped stays stopped. -/
theorem Kept.stopped {fs g : FileSystem} (kept : Kept fs g) {reason : Reason}
    (h : Stopped fs current p reason) : Stopped g current p reason := by
  cases h with
  | onWay refused known => exact .onWay (kept.follow_eq_error known refused) known
  | file leads there =>
    obtain ⟨bytes', there'⟩ := kept.file there
    exact .file (kept.follow leads) there'

theorem Stopped.ensures {fs : FileSystem} {anchor : Path.Anchor} {name : String}
    {above : List String} {reason : Reason}
    (h : Stopped fs current (upward anchor (name :: above)) reason) :
    Ensures current anchor fs (name :: above)
      (some ⟨reason, (upward anchor (name :: above)).text⟩) fs := by
  obtain ⟨refused, known, apart⟩ := stopped_iff.mp h
  exact .refused refused known apart

/-- Where directories were made a further name is not stopped by what is missing. -/
theorem Ensures.follow_ne_missing {anchor : Path.Anchor} {fs g : FileSystem} {name : String}
    {above : List String} (h : Ensures current anchor fs above none g)
    (here : fs.get? current = some .directory) :
    g.follow current (upward anchor (name :: above)) ≠ .error .missing := by
  intro missing
  have step : ∀ place, g.get? place = some .directory → g.locate place [name] ≠ .error .missing := by
    intro place there
    rw [locate, there]
    dsimp only
    split <;> simp [locate]
  have short : (upward anchor (name :: above)).text.utf8ByteSize < pathLimit := by
    by_contra long
    unfold follow at missing
    rw [if_pos (by omega)] at missing
    cases missing
  -- the last step is made from the start itself, or from a directory that was made
  by_cases ne : above = []
  · subst ne
    rw [follow_of_short short] at missing
    refine step _ ?_ missing
    unfold base
    split
    · exact get?_root g
    · exact h.grown.directory here
  · obtain ⟨place, leads, there⟩ := isDirectory_iff.mp (h.isDirectory ne)
    rw [follow_upward_cons ne short, leads] at missing
    exact step place there missing

/-- Where something was missing no file stands on the way, unless the path leads back. -/
theorem not_file_above {fs g : FileSystem} {anchor : Path.Anchor} {name : String}
    {above : List String} (sound : fs.Sound) (forth : ".." ∉ name :: above) (ne : above ≠ [])
    (refused : fs.makeDirectory current (upward anchor (name :: above)) = .error .missing)
    {place : Location} (leads : g.follow current (upward anchor above) = .ok place)
    {bytes : List UInt8} : fs.get? place ≠ some (.file bytes) := by
  intro file
  obtain ⟨missing, short⟩ := follow_eq_missing refused
  have le := utf8ByteSize_upward_le anchor name ne
  have back : ".." ∉ (upward anchor above).parts := by
    intro mem
    exact forth (List.mem_cons_of_mem _ (List.mem_reverse.mp mem))
  rw [follow_of_short (by omega)] at leads
  -- the names lead to the file in the smaller file system too
  have same := locate_forth leads back
  have found : fs.follow current (upward anchor above) = .ok place := by
    rw [follow_of_short (by omega), same]
    exact sound.locate (by rw [← same, file]; rfl) back (locate_short leads)
  rw [follow_upward_cons ne short, found] at missing
  change fs.locate place [name] = _ at missing
  rw [locate, file] at missing
  cases missing

theorem Ensures.follow_path_ne_missing {fs g : FileSystem}
    (h : Ensures current p.anchor fs p.parent.parts.reverse none g)
    (here : fs.get? current = some .directory) : g.follow current p ≠ .error .missing := by
  obtain ⟨anchor, parts⟩ := p
  rcases List.eq_nil_or_concat parts with rfl | ⟨names, last, rfl⟩
  · unfold follow
    split <;> simp [locate]
  · rw [List.concat_eq_append] at h ⊢
    rw [Path.parent, List.dropLast_concat] at h
    have same : upward anchor (last :: names.reverse) = ⟨anchor, names ++ [last]⟩ := by
      simp [upward]
    rw [← same]
    exact h.follow_ne_missing here

/-- Directories that were refused are stopped for good, for the reason of the refusal unless the path
leads back. -/
theorem Ensures.stopped {anchor : Path.Anchor} {fs g : FileSystem} {names : List String}
    {fault : Fault} (h : Ensures current anchor fs names (some fault) g)
    (here : fs.get? current = some .directory) :
    names ≠ [] ∧ ∃ reason, Stopped g current (upward anchor names) reason ∧
      (fs.Sound → ".." ∉ names → reason = fault.reason) := by
  generalize refused : some fault = fault? at h
  induction h with
  | nothing | made | there | madeBelow | thereBelow => cases refused
  | refused first known apart =>
    cases refused
    exact ⟨List.cons_ne_nil _ _, _, stopped_iff.mpr ⟨first, known, apart⟩, fun _ _ => rfl⟩
  | @refusedBelow name above mid reason first below second apart _ =>
    cases refused
    refine ⟨List.cons_ne_nil _ _, _, stopped_iff.mpr ⟨second, ?_, apart⟩, fun _ _ => rfl⟩
    rintro rfl
    exact below.follow_ne_missing here (follow_eq_missing second).1
  | @aboveRefused name above fault mid first below ih =>
    cases refused
    obtain ⟨ne, reason, stopped, sameReason⟩ := ih rfl
    refine ⟨List.cons_ne_nil _ _, ?_⟩
    have onward : mid.follow current (upward anchor (name :: above)) = _ :=
      follow_upward_cons ne (follow_eq_missing first).2
    cases stopped with
    -- what stops the path above stops it on the way to the name as well
    | onWay refused known =>
      rw [refused] at onward
      refine ⟨reason, .onWay onward known, fun sound forth => ?_⟩
      exact sameReason sound fun mem => forth (List.mem_cons_of_mem _ mem)
    -- the path above ends at a file, below which there are no names
    | @file place bytes leads there =>
      rw [leads] at onward
      have step : mid.locate place [name] = .error .notDirectory := by rw [locate, there]
      refine ⟨.notDirectory, .onWay (onward.trans step) (by decide), fun sound forth => ?_⟩
      -- no file has come into being on the way
      have before := (below.grown.apart place List.not_mem_nil bytes).mp there
      exact absurd before (not_file_above sound forth ne first leads)

/-- What was refused is refused again, and nothing more is made. -/
theorem Ensures.refused_again {anchor : Path.Anchor} {fs fs' g : FileSystem} {names : List String}
    {fault : Fault} (h : Ensures current anchor fs names (some fault) fs')
    (here : fs.get? current = some .directory) (kept : Kept fs' g) :
    ∃ fault', Ensures current anchor g names (some fault') g ∧
      (fs.Sound → ".." ∉ names → fault'.reason = fault.reason) := by
  obtain ⟨ne, reason, stopped, sameReason⟩ := h.stopped here
  obtain ⟨name, above, rfl⟩ := List.exists_cons_of_ne_nil ne
  exact ⟨_, (kept.stopped stopped).ensures, sameReason⟩

/-- A refusal names a directory on the way. -/
theorem Ensures.fault_path {anchor : Path.Anchor} {fs g : FileSystem} {names : List String}
    {fault : Fault} (h : Ensures current anchor fs names (some fault) g) :
    ∃ parts, parts <+: (upward anchor names).parts ∧
      fault.path = (⟨anchor, parts⟩ : Path).text := by
  generalize refused : some fault = fault? at h
  induction h with
  | nothing | made | there | madeBelow | thereBelow => cases refused
  | refused | refusedBelow =>
    cases refused
    exact ⟨_, List.prefix_refl _, rfl⟩
  | aboveRefused _ _ ih =>
    obtain ⟨parts, onWay, same⟩ := ih refused
    refine ⟨parts, onWay.trans ?_, same⟩
    rw [upward_cons_parts]
    exact List.prefix_append _ _

end Branchwork.FileSystem
