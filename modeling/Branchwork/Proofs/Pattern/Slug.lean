import Branchwork.Proofs.FileSystem.Growth
import Branchwork.Proofs.Path
import Branchwork.Proofs.Pattern.Count
import Branchwork.Proofs.Text.Blank

/-!
# Which texts are slugs

A slug has at least one character, all its characters are safe in the name of a file, and no underscore
stands at an end of it; and every such text is its own slug. So a slug is the name of a file in the
directory where it is used, with one exception: points are safe characters, and a name of which nothing
is kept but one or two points gets a slug that leads to a directory.

Main results:

* `isSlug_slugify`, `slugify_of_isSlug` — the slugs are the texts that stay as they are.
* `slugOf_eq_iff` — from which names a slug comes.
* `slugify_safe` — what every slug is, and which ones are names of files.
-/

namespace Branchwork.FileSystem

/-- A short name leads to a place in the directory where it is used. -/
theorem follow_ofText_isName {fs : FileSystem} {current : Location} {name : String}
    (isName : Path.IsName name) (inside : fs.get? current = some .directory)
    (short : name.utf8ByteSize ≤ maxNameBytes) :
    fs.follow current (Path.ofText name) = .ok (current ++ [name]) := by
  have path : Path.ofText name = ⟨.here, [name]⟩ := by
    have read := Path.ofText_intercalate (List.cons_ne_nil name []) (by simpa using .inr isName)
    rwa [String.intercalate_singleton] at read
  have text : (⟨.here, [name]⟩ : Path).text = name := by
    simp [Path.text, Path.Anchor.text, String.intercalate_singleton]
  have within : ¬ pathLimit ≤ name.utf8ByteSize :=
    Nat.not_le.mpr (Nat.lt_of_le_of_lt short (by decide))
  rw [path, follow, text, if_neg within]
  exact locate_single_eq_ok.mpr
    ⟨inside, Nat.not_lt.mpr short, (if_neg isName.2.2.1).symm⟩

end Branchwork.FileSystem

namespace Branchwork.Pattern

variable {s t : List Char}

/-! ## Runs of other characters -/

/-- A character of which a slug keeps an underscore at most. -/
def IsFiller (c : Char) : Prop := isSlugChar c = true → c = '_'

instance (c : Char) : Decidable (IsFiller c) := inferInstanceAs (Decidable (_ → _))

theorem squeeze_kept_append (kept : ∀ c ∈ s, isSlugChar c = true) (back : List Char) :
    squeeze false (s ++ back) = s ++ squeeze false back := by
  induction s with
  | nil => rfl
  | cons c rest ih =>
    obtain ⟨first, kept⟩ := List.forall_mem_cons.mp kept
    rw [List.cons_append, squeeze, if_pos first, ih kept, List.cons_append]

/-- A character that is kept ends the run in front of it. -/
theorem squeeze_append_kept {c : Char} (kept : isSlugChar c = true) (inRun : Bool)
    (front back : List Char) :
    squeeze inRun (front ++ c :: back) = squeeze inRun front ++ c :: squeeze false back := by
  induction front generalizing inRun with
  | nil => exact if_pos kept
  | cons d front ih =>
    rw [List.cons_append, squeeze, squeeze]
    split
    · rw [ih, List.cons_append]
    · split
      · exact ih true
      · rw [ih, List.cons_append]

/-- A character other than the underscore stands for itself. -/
theorem squeeze_eq_append {c : Char} (own : c ≠ '_') {inRun : Bool} {front back : List Char}
    (h : squeeze inRun s = front ++ c :: back) :
    isSlugChar c = true ∧ ∃ before after, s = before ++ c :: after ∧
      squeeze inRun before = front ∧ squeeze false after = back := by
  induction s generalizing inRun front with
  | nil => cases front <;> cases h
  | cons d rest ih =>
    rw [squeeze] at h
    -- a character is kept, goes on with a run of others, or begins such a run
    split at h
    · rename_i kept
      cases front with
      | nil =>
        cases h
        exact ⟨kept, [], rest, rfl, rfl, rfl⟩
      | cons e front =>
        rw [List.cons_append, List.cons.injEq] at h
        obtain ⟨rfl, h⟩ := h
        obtain ⟨kept', before, after, rfl, rfl, behind⟩ := ih h
        exact ⟨kept', d :: before, after, rfl, by rw [squeeze, if_pos kept], behind⟩
    · rename_i unkept
      split at h
      · rename_i goesOn
        obtain ⟨kept', before, after, rfl, rfl, behind⟩ := ih h
        exact ⟨kept', d :: before, after, rfl, by rw [squeeze, if_neg unkept, if_pos goesOn], behind⟩
      · rename_i begins
        cases front with
        | nil =>
          cases h
          exact absurd rfl own
        | cons e front =>
          rw [List.cons_append, List.cons.injEq] at h
          obtain ⟨rfl, h⟩ := h
          obtain ⟨kept', before, after, rfl, rfl, behind⟩ := ih h
          exact ⟨kept', d :: before, after, rfl, by rw [squeeze, if_neg unkept, if_neg begins], behind⟩

theorem squeeze_filler_iff {inRun : Bool} :
    (∀ c ∈ squeeze inRun s, c = '_') ↔ ∀ c ∈ s, IsFiller c := by
  induction s generalizing inRun with
  | nil => simp [squeeze]
  | cons c rest ih =>
    rw [squeeze, List.forall_mem_cons]
    by_cases kept : isSlugChar c = true
    · rw [if_pos kept, List.forall_mem_cons, ih, IsFiller, imp_iff_right kept]
    · have filler : IsFiller c := fun kept' => absurd kept' kept
      rw [if_neg kept, and_iff_right filler]
      split
      · exact ih
      · rw [List.forall_mem_cons, ih, and_iff_right rfl]

/-! ## Solid texts -/

/-- A text that a slug keeps as it is: no underscore, and no character that becomes one. -/
def IsSolid (t : List Char) : Prop := t ≠ [] ∧ ∀ c ∈ t, ¬ IsFiller c

theorem not_isFiller_iff {c : Char} : ¬ IsFiller c ↔ isSlugChar c = true ∧ c ≠ '_' :=
  Classical.not_imp

theorem squeeze_false_eq_append (solid : ∀ c ∈ t, ¬ IsFiller c) {back : List Char}
    (h : squeeze false s = t ++ back) : ∃ after, s = t ++ after ∧ squeeze false after = back := by
  induction t generalizing s with
  | nil => exact ⟨s, rfl, h⟩
  | cons c t ih =>
    obtain ⟨first, solid⟩ := List.forall_mem_cons.mp solid
    have own := (not_isFiller_iff.mp first).2
    rw [List.cons_append, ← List.nil_append (c :: (t ++ back))] at h
    obtain ⟨-, before, after, rfl, nothing, behind⟩ := squeeze_eq_append own h
    -- a run in front would have left an underscore
    obtain rfl : before = [] := by
      cases before with
      | nil => rfl
      | cons d rest =>
        rw [squeeze] at nothing
        split at nothing <;> cases nothing
    obtain ⟨after', rfl, behind'⟩ := ih solid behind
    exact ⟨after', rfl, behind'⟩

/-- A solid text with underscores around it comes from this text with fillers around it. -/
theorem squeeze_solid_iff (solid : IsSolid t) :
    (∃ front back, squeeze false s = front ++ t ++ back ∧ ∀ c ∈ front ++ back, c = '_') ↔
      ∃ before after, s = before ++ t ++ after ∧ ∀ c ∈ before ++ after, IsFiller c := by
  obtain ⟨ne, solid⟩ := solid
  obtain ⟨c, t, rfl⟩ := List.exists_cons_of_ne_nil ne
  obtain ⟨first, others⟩ := List.forall_mem_cons.mp solid
  obtain ⟨kept, own⟩ := not_isFiller_iff.mp first
  simp only [List.append_assoc, List.cons_append, List.forall_mem_append]
  constructor
  · rintro ⟨front, back, squeezed, underscores⟩
    obtain ⟨-, before, rest, rfl, rfl, behind⟩ := squeeze_eq_append own squeezed
    obtain ⟨after, rfl, rfl⟩ := squeeze_false_eq_append others behind
    exact ⟨before, after, rfl, underscores.imp squeeze_filler_iff.mp squeeze_filler_iff.mp⟩
  · rintro ⟨before, after, rfl, fillers⟩
    refine ⟨squeeze false before, squeeze false after, ?_,
      fillers.imp squeeze_filler_iff.mpr squeeze_filler_iff.mpr⟩
    rw [squeeze_append_kept kept, squeeze_kept_append fun d mem => (not_isFiller_iff.mp (others d mem)).1]

/-! ## Slugs -/

/-- A text that can be a slug. -/
structure IsSlug (slug : String) : Prop where
  ne_empty : slug ≠ ""
  safe : ∀ c ∈ slug.toList, c.isAlphanum = true ∨ c ∈ ['.', '_', '-']
  first : slug.toList.head? ≠ some '_'
  last : slug.toList.getLast? ≠ some '_'

theorem isSlugChar_iff {c : Char} :
    isSlugChar c = true ↔ c.isAlphanum = true ∨ c ∈ ['.', '_', '-'] := by
  simp [isSlugChar, or_assoc]

theorem slugOf_eq (name : List Char) : slugOf name =
    match Text.dropEnds (· = '_') (squeeze false ((afterScheme? name).getD name)) with
    | [] => "output".toList
    | slug => slug := rfl

theorem slugOf_ends (name : List Char) :
    (slugOf name).head? ≠ some '_' ∧ (slugOf name).getLast? ≠ some '_' := by
  rw [slugOf_eq]
  split
  · decide
  · constructor
    · intro first
      exact absurd (Text.head?_dropEnds _ first) (by decide)
    · intro last
      exact absurd (Text.getLast?_dropEnds _ last) (by decide)

theorem slugOf_ne_nil (name : List Char) : slugOf name ≠ [] := by
  rw [slugOf_eq]
  split
  · decide
  · assumption

theorem isSlug_slugify (name : String) : IsSlug (slugify name) := by
  have chars : (slugify name).toList = slugOf name.toList := String.toList_ofList
  obtain ⟨first, last⟩ := slugOf_ends name.toList
  refine ⟨fun empty => ?_, fun c mem => ?_, chars ▸ first, chars ▸ last⟩
  · rw [empty] at chars
    exact slugOf_ne_nil _ chars.symm
  · rw [chars] at mem
    exact isSlugChar_iff.mp (isSlugChar_of_mem_slugOf c mem)

/-- There is no scheme in front of a text that is safe in the name of a file. -/
theorem afterScheme?_of_kept (kept : ∀ c ∈ s, isSlugChar c = true) : afterScheme? s = none := by
  fun_induction afterScheme? s with
  | case1 => rfl
  | case2 rest => exact absurd (kept ':' List.mem_cons_self) (by decide)
  | case3 c rest _ ih => exact ih (List.forall_mem_cons.mp kept).2

theorem slugify_of_isSlug {slug : String} (isSlug : IsSlug slug) : slugify slug = slug := by
  have kept : ∀ c ∈ slug.toList, isSlugChar c = true := fun c mem =>
    isSlugChar_iff.mpr (isSlug.safe c mem)
  have squeezed : squeeze false slug.toList = slug.toList := by
    have whole := squeeze_kept_append kept []
    rwa [List.append_nil, squeeze, List.append_nil] at whole
  have ends : Text.dropEnds (· = '_') slug.toList = slug.toList :=
    Text.dropEnds_eq_self (fun c mem => decide_eq_false fun same => isSlug.first (same ▸ mem))
      fun c mem => decide_eq_false fun same => isSlug.last (same ▸ mem)
  have ne : slug.toList ≠ [] := by
    rw [show [] = "".toList from rfl, ne_eq, String.toList_inj]
    exact isSlug.ne_empty
  have own : slugOf slug.toList = slug.toList := by
    rw [slugOf_eq, afterScheme?_of_kept kept, Option.getD_none, squeezed, ends]
    split
    · rename_i empty
      exact absurd empty ne
    · rfl
  rw [slugify, own, String.ofList_toList]

/-- A solid text other than the one that stands for an empty slug is the slug of the names in which,
behind the scheme, it has nothing but fillers around it. -/
theorem slugOf_eq_iff {name : List Char} (solid : IsSolid t) (other : t ≠ "output".toList) :
    slugOf name = t ↔ ∃ before after, (afterScheme? name).getD name = before ++ t ++ after ∧
      ∀ c ∈ before ++ after, IsFiller c := by
  have dropped : slugOf name = t ↔
      Text.dropEnds (· = '_') (squeeze false ((afterScheme? name).getD name)) = t := by
    rw [slugOf_eq]
    split
    · rename_i empty
      rw [empty]
      exact iff_of_false other.symm solid.1.symm
    · exact Iff.rfl
  have own (c : Char) (mem : c ∈ t) : decide (c = '_') = false :=
    decide_eq_false (not_isFiller_iff.mp (solid.2 c mem)).2
  rw [dropped, Text.dropEnds_eq_iff solid.1 (fun c mem => own c (List.mem_of_mem_head? mem))
    fun c mem => own c (List.mem_of_mem_getLast? mem), ← squeeze_solid_iff solid]
  simp only [decide_eq_true_eq]

/-! ## Names of files -/

/-- Behind its scheme, a name has one point or two with nothing but fillers around them. -/
def OnlyPoints (name : List Char) : Prop :=
  ∃ points ∈ [".".toList, "..".toList], ∃ before after,
    (afterScheme? name).getD name = before ++ points ++ after ∧ ∀ c ∈ before ++ after, IsFiller c

theorem onlyPoints_iff {name : String} :
    OnlyPoints name.toList ↔ slugify name = "." ∨ slugify name = ".." := by
  have solid : ∀ points ∈ [".".toList, "..".toList], IsSolid points ∧ points ≠ "output".toList := by
    have point : ¬ IsFiller '.' := by decide
    rw [List.forall_mem_cons, List.forall_mem_singleton]
    refine ⟨⟨⟨by decide, ?_⟩, by decide⟩, ⟨by decide, ?_⟩, by decide⟩
    · exact List.forall_mem_singleton.mpr point
    · exact List.forall_mem_cons.mpr ⟨point, List.forall_mem_singleton.mpr point⟩
  have slug (text : String) : slugify name = text ↔ slugOf name.toList = text.toList := by
    rw [← String.toList_inj, slugify, String.toList_ofList]
  rw [slug, slug]
  constructor
  · rintro ⟨points, mem, around⟩
    have found := (slugOf_eq_iff (solid points mem).1 (solid points mem).2).mpr around
    simpa [found] using mem
  · intro found
    have mem : slugOf name.toList ∈ [".".toList, "..".toList] := by simpa using found
    exact ⟨_, mem, (slugOf_eq_iff (solid _ mem).1 (solid _ mem).2).mp rfl⟩

theorem isName_slugify_iff (name : String) :
    Path.IsName (slugify name) ↔ ¬ OnlyPoints name.toList := by
  have isSlug := isSlug_slugify name
  have slashless : '/' ∉ (slugify name).toList := fun mem => absurd (isSlug.safe _ mem) (by decide)
  rw [onlyPoints_iff, not_or, Path.IsName, and_iff_right isSlug.ne_empty, and_iff_left slashless]

/-- The slug of every name is a text that can be a slug, and a slug is its own slug. It is the name of a
file unless nothing is kept of the name but one or two points; if it is not too long, it leads then to a
place in the directory where it is used. -/
theorem slugify_safe (name : String) :
    IsSlug (slugify name) ∧ slugify (slugify name) = slugify name ∧
      (Path.IsName (slugify name) ↔ ¬ OnlyPoints name.toList) ∧
      (¬ OnlyPoints name.toList → ∀ (fs : FileSystem) (current : Location),
        fs.get? current = some .directory →
        (slugify name).utf8ByteSize ≤ FileSystem.maxNameBytes →
        fs.follow current (Path.ofText (slugify name)) = .ok (current ++ [slugify name])) := by
  have isName := isName_slugify_iff name
  exact ⟨isSlug_slugify name, slugify_of_isSlug (isSlug_slugify name), isName,
    fun named _ _ inside short => FileSystem.follow_ofText_isName (isName.mpr named) inside short⟩

/-- The address of a page. -/
theorem page_slugify_safe : slugify "https://example.com/a?b=1" = "example.com_a_b_1" ∧
    ¬ OnlyPoints "https://example.com/a?b=1".toList ∧
    FileSystem.empty.follow [] (Path.ofText "example.com_a_b_1") = .ok ["example.com_a_b_1"] := by
  have slug : slugify "https://example.com/a?b=1" = "example.com_a_b_1" := by decide +kernel
  have named : ¬ OnlyPoints "https://example.com/a?b=1".toList := by
    rw [onlyPoints_iff, slug]
    decide
  have leads := (slugify_safe "https://example.com/a?b=1").2.2.2 named FileSystem.empty [] rfl
  rw [slug] at leads
  exact ⟨slug, named, leads (by decide +kernel)⟩

/-- Two points with nothing but a scheme and a stroke around them, and one point. -/
example : slugify "a://../" = ".." ∧ slugify " ._" = "." := by decide +kernel

end Branchwork.Pattern
