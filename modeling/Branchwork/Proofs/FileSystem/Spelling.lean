import Branchwork.Proofs.FileSystem.Named
import Branchwork.Proofs.Pattern

/-!
# Names as a pattern spells them

A search goes component by component, and a name that it comes to has one slash between each two
components. The pattern as a text knows nothing of components: its wildcards take slashes as well. The
two meet where the pattern is spelt as its components are joined: a way of the search that goes on in
every component spells a name that the pattern takes as a text.

A component `**` may also stand for no directory at all. On such a way the name is shorter than the
pattern is spelt, since the slash behind `**` is not in it.

Main results:

* `count_slash_le` — no name has more slashes than a pattern without `**` that finds it.
* `FoundDeep.takes` — what is found with a directory for every `**` is matched as a text.
* `foundDeep_of_mem_glob` — without `**` that is everything that is found.
-/

namespace Branchwork

/-! ## Slashes -/

namespace Path

theorem length_splitSlashes (s : List Char) : (splitSlashes s).length = s.count '/' + 1 := by
  induction s with
  | nil => rfl
  | cons c rest ih =>
    rw [splitSlashes]
    by_cases slash : c = '/'
    · subst slash
      rw [if_pos rfl, List.length_cons, ih, List.count_cons_self]
    · rw [if_neg slash, List.count_cons_of_ne slash, ← ih]
      cases parts : splitSlashes rest with
      | nil =>
        rw [parts] at ih
        cases ih
      | cons first more => rfl

/-- A text has a slash between each two of the components of its path, and may have more. -/
theorem length_parts_le (s : String) : (ofText s).parts.length ≤ s.toList.count '/' + 1 := by
  rw [← length_splitSlashes]
  unfold ofText
  rw [List.length_map]
  exact List.length_filter_le _ _

/-- Names that are joined into a text have one slash between each two of them. -/
theorem count_intercalate {names : List String} (ne : names ≠ [])
    (slashless : ∀ name ∈ names, '/' ∉ name.toList) :
    ("/".intercalate names).toList.count '/' + 1 = names.length := by
  have text : ("/".intercalate names).toList = ['/'].intercalate (names.map String.toList) :=
    String.toList_intercalate
  rw [← length_splitSlashes, text,
    splitSlashes_intercalate (by simpa using ne) (List.forall_mem_map.mpr slashless),
    List.length_map]

end Path

namespace FileSystem

variable {current : Location}

theorem slash_not_mem {name : String} (proper : name = ".." ∨ Path.IsName name) :
    '/' ∉ name.toList := by
  rcases proper with rfl | isName
  · decide
  · exact isName.2.2.2

/-! ## The way of a search -/

/-- A component that stands for one name goes on with one name. -/
theorem StepsTo.length {fs : FileSystem} {only : Bool} {walked : Path} {rest : List GlobPart}
    {part : GlobPart} {step : List String} (h : StepsTo fs current only walked rest part step)
    (single : part ≠ .directories) : step.length = 1 := by
  cases h with
  | directories => exact absurd rfl single
  | back | name | wild => rfl

theorem Finds.length {fs : FileSystem} {only : Bool} {walked : Path} {parts : List GlobPart}
    {names : List String} (h : Finds fs current only walked parts names)
    (single : .directories ∉ parts) : names.length = parts.length := by
  induction h with
  | here => rfl
  | @step walked part rest step below first _ ih =>
    obtain ⟨here, single⟩ := not_or.mp fun mem => single (List.mem_cons.mpr mem)
    rw [List.length_append, first.length (Ne.symm here), ih single, List.length_cons, Nat.add_comm]

/-- What a component is read as: the two that are no names, items, or itself. -/
theorem GlobPart.read_cases {component : String} {part : GlobPart}
    (h : GlobPart.read component = .ok part) :
    (component = "**" ∧ part = .directories) ∨ (component = ".." ∧ part = .back) ∨
      part = .wild (itemsFrom 0 component.toList) ∨ part = .name component := by
  unfold GlobPart.read at h
  dsimp only at h
  split at h
  · cases h
    exact .inl ⟨‹_›, rfl⟩
  split at h
  · cases h
    exact .inr (.inl ⟨‹_›, rfl⟩)
  split at h
  · cases h
  split at h
  · cases h
    exact .inr (.inr (.inl rfl))
  · cases h
    exact .inr (.inr (.inr rfl))

/-- Only `**` stands for any number of directories. -/
theorem readPattern_directories {pattern : String} {asked : Bool × List GlobPart}
    (h : readPattern pattern = .ok asked) (mem : .directories ∈ asked.2) :
    "**" ∈ (Path.ofText pattern).parts := by
  obtain ⟨component, isComponent, same⟩ := exists_of_mapM_eq_ok (readPattern_parts h) mem
  rcases GlobPart.read_cases same with ⟨rfl, -⟩ | ⟨-, other⟩ | other | other
  · exact isComponent
  · cases other
  · cases other
  · cases other

/-- A pattern without `**` has at least as many slashes as each name that it finds. -/
theorem count_slash_le {fs : FileSystem} (named : fs.Named) {b : Path} {pattern : String}
    {found : List String} (h : fs.glob current b pattern = .ok found)
    (single : "**" ∉ (Path.ofText pattern).parts) {name : String} (mem : name ∈ found) :
    name.toList.count '/' ≤ pattern.toList.count '/' := by
  obtain ⟨asked, -, names, -, -, read, -, finds, ne, rfl, -, -⟩ := exists_finds named h mem
  have proper := finds.proper named fun component mem => readPattern_proper read mem
  have slashes := Path.count_intercalate ne fun name mem => slash_not_mem (proper name mem)
  have steps := finds.length fun mem => single (readPattern_directories read mem)
  have components := (mapM_eq_ok.mp (readPattern_parts read)).length_eq
  have spelt := Path.length_parts_le pattern
  omega

/-! ## Components as texts -/

/-- Where `?` and `[` do not occur, only `*` stands for other characters. -/
theorem takes_of_matchesItems {chars s : List Char} (unset : '?' ∉ chars ∧ '[' ∉ chars)
    (clear : '\n' ∉ s) (h : matchesItems (itemsFrom 0 chars) s = true) :
    Pattern.Takes chars s [] := by
  induction chars generalizing s with
  | nil =>
    rw [itemsFrom, matchesItems, List.isEmpty_iff] at h
    rw [h]
    exact .done
  | cons c rest ih =>
    simp only [List.mem_cons, not_or] at unset
    have unset_rest := And.intro unset.1.2 unset.2.2
    rw [itemsFrom] at h
    by_cases wild : c = Pattern.wildcard
    · subst wild
      rw [if_pos rfl, matchesItems, List.any_eq_true] at h
      obtain ⟨k, -, h⟩ := h
      rw [← List.take_append_drop k s] at clear ⊢
      rw [List.mem_append, not_or] at clear
      exact .run clear.1 (ih unset_rest clear.2 h)
    · rw [if_neg wild, if_neg (Ne.symm unset.1.1), if_neg (Ne.symm unset.2.1)] at h
      cases s with
      | nil => cases h
      | cons d s =>
        change (decide (d = c) && matchesItems (itemsFrom 0 rest) s) = true at h
        obtain ⟨same, below⟩ := Bool.and_eq_true_iff.mp h
        rw [of_decide_eq_true same]
        exact .char wild (ih unset_rest (fun mem => clear (List.mem_cons_of_mem _ mem)) below)

theorem intercalate_cons (first : String) {rest : List String} (ne : rest ≠ []) :
    "/".intercalate (first :: rest) = first ++ "/" ++ "/".intercalate rest := by
  have split := String.intercalate_append_of_ne_nil (s := "/") (List.cons_ne_nil first []) ne
  rwa [String.intercalate_singleton] at split

/-- The characters of a name are among those of the text that it is joined into. -/
theorem subset_intercalate {names : List String} {name : String} (mem : name ∈ names) :
    name.toList ⊆ ("/".intercalate names).toList := by
  induction names with
  | nil => cases mem
  | cons first rest ih =>
    by_cases last : rest = []
    · subst last
      rw [List.mem_singleton.mp mem, String.intercalate_singleton]
      exact List.Subset.refl _
    · rw [intercalate_cons first last, String.toList_append]
      rcases List.mem_cons.mp mem with rfl | mem
      · rw [String.toList_append]
        exact fun c inside => List.mem_append_left _ (List.mem_append_left _ inside)
      · exact fun c inside => List.mem_append_right _ (ih mem inside)

/-- A step that goes on is a name that its component takes as a text. -/
theorem StepsTo.takes {fs : FileSystem} {only : Bool} {walked : Path} {rest : List GlobPart}
    {component : String} {part : GlobPart} {step : List String}
    (h : StepsTo fs current only walked rest part step) (read : GlobPart.read component = .ok part)
    (unset : '?' ∉ component.toList ∧ '[' ∉ component.toList)
    (clear : '\n' ∉ ("/".intercalate step).toList) :
    Pattern.Takes component.toList ("/".intercalate step).toList [] := by
  have itself : Pattern.Takes component.toList component.toList [] := by
    have takes := Pattern.takes_self component.toList []
    rwa [List.append_nil] at takes
  rcases GlobPart.read_cases read with ⟨rfl, rfl⟩ | ⟨rfl, rfl⟩ | rfl | rfl
  · -- the first of the two wildcards takes everything
    have nothing : Pattern.Takes [Pattern.wildcard] [] [] := .run List.not_mem_nil .done
    have takes := Pattern.Takes.run clear nothing
    rwa [List.append_nil] at takes
  · cases h
    exact itself
  · cases h with
    | wild _ _ fits _ =>
      rw [String.intercalate_singleton] at clear ⊢
      exact takes_of_matchesItems unset clear fits
  · cases h
    rwa [String.intercalate_singleton]

/-! ## Ways that go on in every component -/

/-- The names that the components of a pattern lead to if each of them goes on: for `**` with at least
one directory. -/
inductive FindsDeep (fs : FileSystem) (current : Location) (only : Bool) :
    Path → List GlobPart → List String → Prop
  | here {walked} : FindsDeep fs current only walked [] []
  | step {walked part rest step below} : StepsTo fs current only walked rest part step →
      step ≠ [] → FindsDeep fs current only (walked.below step) rest below →
      FindsDeep fs current only walked (part :: rest) (step ++ below)

/-- Without `**` every way goes on in each component. -/
theorem Finds.deep {fs : FileSystem} {only : Bool} {walked : Path} {parts : List GlobPart}
    {names : List String} (h : Finds fs current only walked parts names)
    (single : .directories ∉ parts) : FindsDeep fs current only walked parts names := by
  induction h with
  | here => exact .here
  | step first _ ih =>
    obtain ⟨here, single⟩ := not_or.mp fun mem => single (List.mem_cons.mpr mem)
    refine .step first ?_ (ih single)
    exact List.ne_nil_of_length_pos (by rw [first.length (Ne.symm here)]; exact Nat.one_pos)

theorem FindsDeep.ne_nil {fs : FileSystem} {only : Bool} {walked : Path} {parts : List GlobPart}
    {names : List String} (h : FindsDeep fs current only walked parts names) (ne : parts ≠ []) :
    names ≠ [] := by
  cases h with
  | here => exact absurd rfl ne
  | step _ goes_on _ => exact List.append_ne_nil_of_left_ne_nil goes_on _

/-- The name that such a way spells is taken by the components as they are joined. -/
theorem FindsDeep.takes {fs : FileSystem} {only : Bool} {walked : Path} {parts : List GlobPart}
    {names components : List String} (h : FindsDeep fs current only walked parts names)
    (read : List.Forall₂ (fun component part => GlobPart.read component = .ok part) components parts)
    (unset : ∀ component ∈ components, '?' ∉ component.toList ∧ '[' ∉ component.toList)
    (clear : '\n' ∉ ("/".intercalate names).toList) :
    Pattern.Takes ("/".intercalate components).toList ("/".intercalate names).toList [] := by
  induction h generalizing components with
  | here =>
    cases read
    exact .done
  | @step walked part rest step below first goes_on further ih =>
    obtain ⟨component, components, here, behind, rfl⟩ := List.forall₂_cons_right_iff.mp read
    have unset_here := unset component List.mem_cons_self
    have unset_behind := fun other mem => unset other (List.mem_cons_of_mem component mem)
    by_cases last : rest = []
    · subst last
      cases behind
      cases further
      rw [List.append_nil, String.intercalate_singleton] at *
      exact first.takes here unset_here clear
    · have goes_further := further.ne_nil last
      have some_left : components ≠ [] := by
        rintro rfl
        cases behind
        exact last rfl
      rw [String.intercalate_append_of_ne_nil goes_on goes_further, String.toList_append,
        String.toList_append, List.mem_append, List.mem_append, not_or, not_or] at clear
      have takes := first.takes here unset_here clear.1.1
      rw [intercalate_cons component some_left,
        String.intercalate_append_of_ne_nil goes_on goes_further]
      simp only [String.toList_append, List.append_assoc]
      -- behind the step come the slash and the rest of the name
      have whole := takes.append ("/".toList ++ ("/".intercalate below).toList)
      have slash : '/' ≠ Pattern.wildcard := by decide
      exact whole.trans (.char slash (ih behind unset_behind clear.2))

/-- A search leads to a name on a way that goes on in every component of the pattern. -/
def FoundDeep (fs : FileSystem) (current : Location) (b : Path) (pattern name : String) : Prop :=
  ∃ asked names, readPattern pattern = .ok asked ∧
    FindsDeep fs current asked.1 b asked.2 names ∧ name = "/".intercalate names

theorem foundDeep_of_mem_glob {fs : FileSystem} (named : fs.Named) {b : Path} {pattern : String}
    {found : List String} (h : fs.glob current b pattern = .ok found)
    (single : "**" ∉ (Path.ofText pattern).parts) {name : String} (mem : name ∈ found) :
    FoundDeep fs current b pattern name := by
  obtain ⟨asked, -, names, -, -, read, -, finds, -, spelt, -, -⟩ := exists_finds named h mem
  exact ⟨asked, names, read, finds.deep fun mem => single (readPattern_directories read mem), spelt⟩

/-- A pattern that can be searched for has its components joined as the text of its path. -/
theorem readPattern_text {pattern : String} {asked : Bool × List GlobPart}
    (h : readPattern pattern = .ok asked) :
    (Path.ofText pattern).text = "/".intercalate (Path.ofText pattern).parts := by
  unfold readPattern at h
  split at h
  · cases h
  dsimp only at h
  split at h
  · cases h
  rename_i relative
  split at h
  · cases h
  rename_i some_parts
  have here : (Path.ofText pattern).anchor = .here := by simpa [Path.isAbsolute] using relative
  unfold Path.text
  rw [here, if_neg (by simpa using some_parts)]
  exact String.empty_append

theorem FoundDeep.takes {fs : FileSystem} {b : Path} {pattern name : String}
    (deep : FoundDeep fs current b pattern name) (spelt : (Path.ofText pattern).text = pattern)
    (unset : '?' ∉ pattern.toList ∧ '[' ∉ pattern.toList) (clear : '\n' ∉ name.toList) :
    Pattern.Takes pattern.toList name.toList [] := by
  obtain ⟨asked, names, read, deep, rfl⟩ := deep
  have text := readPattern_text read
  rw [spelt] at text
  have components := mapM_eq_ok.mp (readPattern_parts read)
  have unset_parts : ∀ component ∈ (Path.ofText pattern).parts,
      '?' ∉ component.toList ∧ '[' ∉ component.toList := by
    intro component mem
    have within := subset_intercalate mem
    rw [← text] at within
    exact ⟨fun inside => unset.1 (within inside), fun inside => unset.2 (within inside)⟩
  have takes := deep.takes components unset_parts clear
  rwa [← text] at takes

end FileSystem

end Branchwork
