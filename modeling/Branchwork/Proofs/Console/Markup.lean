import Branchwork.Console.Markup
import Branchwork.Proofs.Result
import Mathlib.Data.List.TakeWhile

/-!
# Escaped markup

A text that is escaped holds no tags, wherever it stands, as long as no closing bracket follows: the
bracket could turn the end of the text into a tag. A text with a closing bracket behind it is not
safe, even if that bracket is part of another escaped text.

Main results:

* `tagsFrom_escape` — an escaped text with no closing bracket behind it has no tags.
* `tagsFrom_escape_escape` — nor have two escaped texts, if there is no opening bracket in the first.
* `plain_marked` — such a text is accepted behind a part that is marked by a pair of tags.
-/

namespace Branchwork.Markup

/-! ## Tags -/

/-- The inside of a tag: it holds no bracket, and starts as a tag does. -/
def IsInside (inside : List Char) : Prop :=
  (∀ c ∈ inside, c ≠ '[' ∧ c ≠ ']') ∧ inside.head?.any isTagStart

-- Over the characters of the list: a decision over all characters would not be computed.
instance (inside : List Char) : Decidable (IsInside inside) :=
  @instDecidableAnd _ _ (List.decidableBAll _ inside) _

theorem drop_takeWhile (p : Char → Bool) (s : List Char) :
    s.drop (s.takeWhile p).length = s.dropWhile p := by
  calc s.drop (s.takeWhile p).length
      = (s.takeWhile p ++ s.dropWhile p).drop (s.takeWhile p).length := by
        rw [List.takeWhile_append_dropWhile]
    _ = s.dropWhile p := List.drop_left

theorem tagInside?_eq_some_iff {s inside : List Char} :
    tagInside? s = some inside ↔
      IsInside inside ∧ ∃ rest, s = '[' :: (inside ++ ']' :: rest) := by
  constructor
  · intro found
    unfold tagInside? at found
    split at found
    · rename_i rest
      dsimp only at found
      rw [drop_takeWhile] at found
      -- what stands up to the next bracket of either kind is the inside, if that bracket closes it
      split at found
      · rename_i closed
        cases found
        rw [Bool.and_eq_true, decide_eq_true_eq] at closed
        obtain ⟨start, ends⟩ := closed
        refine ⟨⟨fun c mem => ?_, start⟩, ?_⟩
        · have plain := List.mem_takeWhile_imp mem
          simp only [Bool.and_eq_true, decide_eq_true_eq] at plain
          exact ⟨plain.2, plain.1⟩
        · obtain ⟨behind, last⟩ := List.head?_eq_some_iff.mp ends
          exact ⟨behind, by rw [← last, List.takeWhile_append_dropWhile]⟩
      · cases found
    · cases found
  · rintro ⟨⟨plain, start⟩, rest, rfl⟩
    have whole : (inside ++ ']' :: rest).takeWhile (fun c => c ≠ ']' && c ≠ '[') = inside := by
      rw [List.takeWhile_append_of_pos]
      · simp
      · intro c mem
        simp [plain c mem]
    simp only [tagInside?, whole, List.drop_left, List.head?_cons, start]
    simp

theorem backslashedTag?_eq_some_iff {s inside : List Char} {count : Nat} :
    backslashedTag? s = some (count, inside) ↔
      IsInside inside ∧
        ∃ rest, s = List.replicate count '\\' ++ '[' :: (inside ++ ']' :: rest) := by
  constructor
  · intro found
    obtain ⟨inside', here, same⟩ := Option.map_eq_some_iff.mp found
    cases same
    obtain ⟨isInside, rest, split⟩ := tagInside?_eq_some_iff.mp here
    refine ⟨isInside, rest, ?_⟩
    have slashes : s.takeWhile (· = '\\') =
        List.replicate (s.takeWhile (· = '\\')).length '\\' :=
      List.eq_replicate_of_mem fun c mem => by simpa using List.mem_takeWhile_imp mem
    rw [← slashes, ← split, drop_takeWhile, List.takeWhile_append_dropWhile]
  · rintro ⟨isInside, rest, rfl⟩
    have slashes : (List.replicate count '\\' ++ '[' :: (inside ++ ']' :: rest)).takeWhile
        (· = '\\') = List.replicate count '\\' := by
      rw [List.takeWhile_append_of_pos]
      · simp
      · intro c mem
        simp [List.eq_of_mem_replicate mem]
    unfold backslashedTag?
    simp only [slashes, List.length_replicate]
    rw [List.drop_left' (List.length_replicate ..),
      tagInside?_eq_some_iff.mpr ⟨isInside, rest, rfl⟩]
    rfl

/-! ## Escaping -/

theorem escapeFrom_cons {c : Char} {s : List Char} (no_tag : backslashedTag? (c :: s) = none) :
    escapeFrom 0 (c :: s) = c :: escapeFrom 0 s := by
  rw [escapeFrom, no_tag]

/-- Where a tag is read its characters are kept as they are. -/
theorem escapeFrom_append (inside rest : List Char) :
    escapeFrom inside.length (inside ++ rest) = inside ++ escapeFrom 0 rest := by
  induction inside with
  | nil => rfl
  | cons c inside ih =>
    rw [List.length_cons, List.cons_append, escapeFrom, ih]
    rfl

/-- The backslashes in front of a tag are doubled, and one more is added. -/
theorem escapeFrom_tag {inside : List Char} (isInside : IsInside inside) (count : Nat)
    (rest : List Char) :
    escapeFrom 0 (List.replicate count '\\' ++ '[' :: (inside ++ ']' :: rest)) =
      List.replicate (2 * count + 1) '\\' ++ '[' :: (inside ++ ']' :: escapeFrom 0 rest) := by
  have tag : backslashedTag? (List.replicate count '\\' ++ '[' :: (inside ++ ']' :: rest)) =
      some (count, inside) := backslashedTag?_eq_some_iff.mpr ⟨isInside, rest, rfl⟩
  cases count with
  | zero =>
    have kept := escapeFrom_append (inside ++ [']']) rest
    simp only [List.length_append, List.length_cons, List.length_nil, Nat.zero_add,
      List.append_assoc, List.cons_append, List.nil_append] at kept
    rw [List.replicate_zero, List.nil_append] at tag ⊢
    rw [escapeFrom, tag]
    dsimp only
    rw [Nat.zero_add inside.length, kept]
  | succ count =>
    -- the first backslash is read with the tag, the other ones are passed over
    have kept := escapeFrom_append (List.replicate count '\\' ++ '[' :: (inside ++ [']'])) rest
    have length : (List.replicate count '\\' ++ '[' :: (inside ++ [']'])).length =
        count + 1 + inside.length + 1 := by
      simp only [List.length_append, List.length_replicate, List.length_cons, List.length_nil]
      omega
    have doubled : List.replicate (2 * (count + 1) + 1) '\\' =
        List.replicate (count + 1 + 1) '\\' ++ List.replicate (count + 1) '\\' := by
      rw [List.replicate_append_replicate]
      congr 1
      omega
    rw [length] at kept
    simp only [List.append_assoc, List.cons_append, List.nil_append] at kept
    rw [List.replicate_succ, List.cons_append] at tag ⊢
    rw [escapeFrom, tag]
    dsimp only
    rw [kept, doubled, List.append_assoc]
    rfl

/-- A text has one first bracket. -/
theorem first_bracket_unique {before before' behind behind' : List Char} {x y : Char}
    (plain : ∀ c ∈ before, c ≠ '[' ∧ c ≠ ']') (plain' : ∀ c ∈ before', c ≠ '[' ∧ c ≠ ']')
    (bracket : x = '[' ∨ x = ']') (bracket' : y = '[' ∨ y = ']')
    (same : before ++ x :: behind = before' ++ y :: behind') : x = y := by
  induction before generalizing before' with
  | nil =>
    cases before' with
    | nil => exact (List.cons.inj same).1
    | cons c before' =>
      have first : x = c := (List.cons.inj same).1
      have clear := plain' c List.mem_cons_self
      rw [← first] at clear
      exact absurd bracket (not_or.mpr clear)
  | cons c before ih =>
    cases before' with
    | nil =>
      have first : c = y := (List.cons.inj same).1
      have clear := plain c List.mem_cons_self
      rw [first] at clear
      exact absurd bracket' (not_or.mpr clear)
    | cons d before' =>
      exact ih (fun e mem => plain e (List.mem_cons_of_mem _ mem))
        (fun e mem => plain' e (List.mem_cons_of_mem _ mem)) (List.cons.inj same).2

/-- A character that does not start a tag stays where it stands. -/
theorem exists_cons_of_escapeFrom {c : Char} {s tail rest : List Char} (open_end : ']' ∉ tail)
    (closed : ']' ∈ c :: rest) (no_tag : backslashedTag? s = none)
    (split : escapeFrom 0 s ++ tail = c :: rest) :
    ∃ s', s = c :: s' ∧ escapeFrom 0 s' ++ tail = rest := by
  cases s with
  | nil =>
    rw [← split] at closed
    exact absurd closed open_end
  | cons d s =>
    rw [escapeFrom_cons no_tag] at split
    obtain ⟨rfl, behind⟩ := List.cons.inj split
    exact ⟨s, rfl, behind⟩

/-- An escaped text whose first bracket is a closing one does not come from a tag. -/
theorem backslashedTag?_eq_none_of_escapeFrom {s tail inside rest : List Char}
    (plain : ∀ c ∈ inside, c ≠ '[' ∧ c ≠ ']')
    (split : escapeFrom 0 s ++ tail = inside ++ ']' :: rest) : backslashedTag? s = none := by
  cases tag : backslashedTag? s with
  | none => rfl
  | some found =>
    -- an escaped tag has an opening bracket as its first one
    obtain ⟨isInside, behind, whole⟩ := backslashedTag?_eq_some_iff.mp tag
    rw [whole, escapeFrom_tag isInside, List.append_assoc, List.cons_append] at split
    have slashes : ∀ e ∈ List.replicate (2 * found.1 + 1) '\\', e ≠ '[' ∧ e ≠ ']' := by
      intro e mem
      rw [List.eq_of_mem_replicate mem]
      decide
    exact absurd (first_bracket_unique slashes plain (.inl rfl) (.inr rfl) split) (by decide)

/-- What stands in front of the first bracket, if that is a closing one, is not changed. -/
theorem exists_of_escapeFrom_eq_plain {s tail inside rest : List Char} (open_end : ']' ∉ tail)
    (plain : ∀ c ∈ inside, c ≠ '[' ∧ c ≠ ']')
    (split : escapeFrom 0 s ++ tail = inside ++ ']' :: rest) :
    ∃ rest, s = inside ++ ']' :: rest := by
  have no_tag := backslashedTag?_eq_none_of_escapeFrom plain split
  induction inside generalizing s with
  | nil =>
    obtain ⟨s', rfl, -⟩ := exists_cons_of_escapeFrom open_end (by simp) no_tag split
    exact ⟨s', rfl⟩
  | cons d inside ih =>
    have others : ∀ c ∈ inside, c ≠ '[' ∧ c ≠ ']' := fun e mem => plain e (List.mem_cons_of_mem _ mem)
    obtain ⟨s', rfl, behind⟩ := exists_cons_of_escapeFrom open_end (by simp) no_tag split
    obtain ⟨rest, rfl⟩ := ih others behind (backslashedTag?_eq_none_of_escapeFrom others behind)
    exact ⟨rest, rfl⟩

/-- An escaped text does not start with a tag unless the text itself does. -/
theorem exists_backslashedTag?_of_escapeFrom {s tail inside rest : List Char} {count : Nat}
    (open_end : ']' ∉ tail) (isInside : IsInside inside)
    (split : escapeFrom 0 s ++ tail =
      List.replicate count '\\' ++ '[' :: (inside ++ ']' :: rest)) :
    ∃ tag, backslashedTag? s = some tag := by
  induction count generalizing s with
  | zero =>
    cases tag : backslashedTag? s with
    | some found => exact ⟨found, rfl⟩
    | none =>
      obtain ⟨s', rfl, behind⟩ := exists_cons_of_escapeFrom open_end (by simp) tag split
      obtain ⟨rest, rfl⟩ := exists_of_escapeFrom_eq_plain open_end isInside.1 behind
      have found : backslashedTag? ('[' :: (inside ++ ']' :: rest)) = some (0, inside) :=
        backslashedTag?_eq_some_iff.mpr ⟨isInside, rest, rfl⟩
      exact ⟨_, tag.symm.trans found⟩
  | succ count ih =>
    cases tag : backslashedTag? s with
    | some found => exact ⟨found, rfl⟩
    | none =>
      rw [List.replicate_succ, List.cons_append] at split
      obtain ⟨s', rfl, behind⟩ := exists_cons_of_escapeFrom open_end (by simp) tag split
      obtain ⟨⟨slashes, inside'⟩, later⟩ := ih behind
      obtain ⟨isInside', rest', rfl⟩ := backslashedTag?_eq_some_iff.mp later
      -- the backslash in front belongs to the tag behind it
      have found : backslashedTag? ('\\' :: (List.replicate slashes '\\' ++
          '[' :: (inside' ++ ']' :: rest'))) = some (slashes + 1, inside') :=
        backslashedTag?_eq_some_iff.mpr ⟨isInside', rest', rfl⟩
      exact ⟨_, tag.symm.trans found⟩

/-! ## The tags of a text -/

/-- Whether a part of a text is a tag. -/
def Piece.isTag : Piece → Bool
  | .plain _ => false
  | .tag _ _ => true

/-- The tags of a text that starts at a position. -/
def tagsFrom (position : Nat) (s : List Char) : List Piece :=
  (piecesFrom position 0 s).filter Piece.isTag

theorem tagsFrom_cons {c : Char} {s : List Char} (no_tag : backslashedTag? (c :: s) = none)
    (position : Nat) : tagsFrom position (c :: s) = tagsFrom (position + 1) s := by
  unfold tagsFrom
  rw [piecesFrom, no_tag]
  dsimp only
  unfold consPlain
  split
  · rename_i same
    rw [same]
    rfl
  · rfl

theorem piecesFrom_append (passed s : List Char) (position : Nat) :
    piecesFrom position passed.length (passed ++ s) =
      piecesFrom (position + passed.length) 0 s := by
  induction passed generalizing position with
  | nil => rfl
  | cons c passed ih =>
    rw [List.length_cons, List.cons_append, piecesFrom, ih]
    congr 1
    omega

/-- A tag behind an odd number of backslashes is plain text. -/
theorem filter_tagPieces (position count : Nat) (inside : List Char) :
    (tagPieces position count inside).filter Piece.isTag =
      if count % 2 = 1 then [] else [.tag (position + count) inside] := by
  unfold tagPieces
  rw [List.filter_append]
  by_cases few : count < 2 <;> by_cases odd : count % 2 = 1 <;> simp [few, odd, Piece.isTag]

theorem tagsFrom_tag {inside : List Char} (isInside : IsInside inside) (count position : Nat)
    (rest : List Char) :
    tagsFrom position (List.replicate count '\\' ++ '[' :: (inside ++ ']' :: rest)) =
      (if count % 2 = 1 then [] else [.tag (position + count) inside]) ++
        tagsFrom (position + (count + inside.length + 2)) rest := by
  obtain ⟨c, s, whole⟩ : ∃ c s, List.replicate count '\\' ++ '[' :: (inside ++ ']' :: rest) =
      c :: s := by
    cases count with
    | zero => exact ⟨_, _, rfl⟩
    | succ count => exact ⟨_, _, rfl⟩
  have tag : backslashedTag? (c :: s) = some (count, inside) :=
    backslashedTag?_eq_some_iff.mpr ⟨isInside, rest, whole.symm⟩
  -- what is passed over is the tag without its first character
  obtain ⟨passed, length, split⟩ : ∃ passed : List Char,
      passed.length = count + inside.length + 1 ∧ s = passed ++ rest := by
    refine ⟨(List.replicate count '\\' ++ '[' :: (inside ++ [']'])).tail, ?_, ?_⟩
    · simp only [List.length_tail, List.length_append, List.length_replicate, List.length_cons,
        List.length_nil]
      omega
    · have same := congrArg List.tail whole
      rw [List.tail_cons] at same
      rw [← same]
      cases count <;> simp [List.replicate_succ]
  rw [whole]
  unfold tagsFrom
  rw [piecesFrom, tag]
  dsimp only
  rw [split, ← length, piecesFrom_append, length]
  have moved : position + 1 + (count + inside.length + 1) =
      position + (count + inside.length + 2) := by omega
  rw [moved, List.filter_cons_of_neg (by simp [Piece.isTag]), List.filter_append,
    filter_tagPieces, List.filter_cons_of_neg (by simp [Piece.isTag])]

/-- A tag needs a closing bracket. -/
theorem tagsFrom_of_not_mem {s : List Char} (open_end : ']' ∉ s) (position : Nat) :
    tagsFrom position s = [] := by
  induction s generalizing position with
  | nil => rfl
  | cons c s ih =>
    cases tag : backslashedTag? (c :: s) with
    | none => rw [tagsFrom_cons tag, ih fun mem => open_end (List.mem_cons_of_mem _ mem)]
    | some found =>
      obtain ⟨-, rest, whole⟩ := backslashedTag?_eq_some_iff.mp tag
      exact absurd (by rw [whole]; simp) open_end

/-- A tag starts with an opening bracket, behind backslashes only. -/
theorem backslashedTag?_eq_none {text s : List Char} (no_bracket : '[' ∉ text)
    (stops : ∀ c ∈ s.head?, c ≠ '[' ∧ c ≠ '\\') : backslashedTag? (text ++ s) = none := by
  cases tag : backslashedTag? (text ++ s) with
  | none => rfl
  | some found =>
    obtain ⟨-, rest, whole⟩ := backslashedTag?_eq_some_iff.mp tag
    rcases List.append_eq_append_iff.mp whole with ⟨more, slashes, behind⟩ | ⟨more, front, behind⟩
    · -- the bracket stands behind the text, so what follows the text starts the wrong way
      cases more with
      | nil => exact absurd rfl (stops '[' (by rw [behind]; rfl)).1
      | cons c more =>
        have slash : c = '\\' := List.eq_of_mem_replicate
          (show c ∈ List.replicate found.1 '\\' by rw [slashes]; simp)
        exact absurd slash (stops c (by rw [behind]; rfl)).2
    · cases more with
      | nil => exact absurd rfl (stops '[' (by rw [List.nil_append] at behind; rw [← behind]; rfl)).1
      | cons c more =>
        obtain rfl : '[' = c := (List.cons.inj behind).1
        exact absurd (by rw [front]; simp) no_bracket

/-- Text without brackets and backslashes holds no tags. -/
theorem tagsFrom_append {text : List Char} (clear : ∀ c ∈ text, c ≠ '[' ∧ c ≠ '\\')
    (position : Nat) (s : List Char) :
    tagsFrom position (text ++ s) = tagsFrom (position + text.length) s := by
  induction text generalizing position with
  | nil => rfl
  | cons c text ih =>
    have no_tag : backslashedTag? ([] ++ c :: (text ++ s)) = none :=
      backslashedTag?_eq_none (by simp) fun d first => clear d (by simp_all)
    rw [List.cons_append, tagsFrom_cons no_tag, ih fun d mem => clear d (List.mem_cons_of_mem _ mem),
      List.length_cons]
    congr 1
    omega

theorem tagsFrom_append_of_not_mem {text s : List Char} (no_bracket : '[' ∉ text)
    (stops : ∀ c ∈ s.head?, c ≠ '[' ∧ c ≠ '\\') (position : Nat) :
    tagsFrom position (text ++ s) = tagsFrom (position + text.length) s := by
  induction text generalizing position with
  | nil => rfl
  | cons c text ih =>
    have no_tag := backslashedTag?_eq_none no_bracket stops
    rw [List.cons_append] at no_tag ⊢
    rw [tagsFrom_cons no_tag, ih fun mem => no_bracket (List.mem_cons_of_mem _ mem),
      List.length_cons]
    congr 1
    omega

/-- An escaped text with no closing bracket behind it has no tags. -/
theorem tagsFrom_escapeFrom {tail : List Char} (open_end : ']' ∉ tail) (s : List Char) (position : Nat) :
    tagsFrom position (escapeFrom 0 s ++ tail) = [] := by
  induction length : s.length using Nat.strong_induction_on generalizing s position with
  | _ n ih =>
    cases s with
    | nil => exact tagsFrom_of_not_mem open_end position
    | cons c s =>
      cases tag : backslashedTag? (c :: s) with
      | none =>
        have no_tag : backslashedTag? (escapeFrom 0 (c :: s) ++ tail) = none := by
          -- a tag of the escaped text would be one of the text itself
          cases later : backslashedTag? (escapeFrom 0 (c :: s) ++ tail) with
          | none => rfl
          | some found =>
            obtain ⟨isInside, rest, split⟩ := backslashedTag?_eq_some_iff.mp later
            obtain ⟨_, found'⟩ := exists_backslashedTag?_of_escapeFrom open_end isInside split
            rw [tag] at found'
            cases found'
        rw [escapeFrom_cons tag, List.cons_append] at no_tag ⊢
        rw [tagsFrom_cons no_tag]
        exact ih s.length (by rw [← length]; simp) s _ rfl
      | some found =>
        obtain ⟨isInside, rest, whole⟩ := backslashedTag?_eq_some_iff.mp tag
        have shorter : rest.length < n := by
          rw [← length, whole]
          simp only [List.length_append, List.length_replicate, List.length_cons]
          omega
        -- behind an odd number of backslashes a tag is none any more
        rw [whole, escapeFrom_tag isInside, List.append_assoc, List.cons_append,
          List.append_assoc, List.cons_append, tagsFrom_tag isInside, if_pos (by omega),
          List.nil_append]
        exact ih rest.length shorter rest _ rfl

theorem mem_of_mem_escapeFrom {c : Char} {skip : Nat} {s : List Char} (mem : c ∈ escapeFrom skip s) :
    c = '\\' ∨ c ∈ s := by
  induction s generalizing skip with
  | nil => exact .inr mem
  | cons d s ih =>
    have later {skip : Nat} (mem : c ∈ d :: escapeFrom skip s) : c = '\\' ∨ c ∈ d :: s := by
      rcases List.mem_cons.mp mem with rfl | mem
      · exact .inr List.mem_cons_self
      · exact (ih mem).imp_right (List.mem_cons_of_mem _)
    cases skip with
    | succ skip => exact later mem
    | zero =>
      rw [escapeFrom] at mem
      split at mem
      · rcases List.mem_append.mp mem with slash | mem
        · exact .inl (List.eq_of_mem_replicate slash)
        · exact later mem
      · exact later mem

/-- What an escaped text ends in beside the text itself: nothing, or a backslash. -/
theorem exists_toList_escape (s : String) :
    ∃ ending, (ending = [] ∨ ending = ['\\']) ∧
      (escape s).toList = escapeFrom 0 s.toList ++ ending := by
  unfold escape
  rw [String.toList_ofList]
  split
  · exact ⟨['\\'], .inr rfl, rfl⟩
  · exact ⟨[], .inl rfl, by rw [List.append_nil]⟩

theorem mem_of_mem_escape {c : Char} {s : String} (mem : c ∈ (escape s).toList) :
    c = '\\' ∨ c ∈ s.toList := by
  obtain ⟨ending, rfl | rfl, whole⟩ := exists_toList_escape s
  all_goals rw [whole] at mem
  · rw [List.append_nil] at mem
    exact mem_of_mem_escapeFrom mem
  · rcases List.mem_append.mp mem with mem | mem
    · exact mem_of_mem_escapeFrom mem
    · exact .inl (List.mem_singleton.mp mem)

/-- The backslash that is added to an escaped text counts as part of what follows. -/
theorem tagsFrom_escape {tail : List Char} (open_end : ']' ∉ tail) (s : String) (position : Nat) :
    tagsFrom position ((escape s).toList ++ tail) = [] := by
  obtain ⟨ending, closes, whole⟩ := exists_toList_escape s
  rw [whole, List.append_assoc]
  refine tagsFrom_escapeFrom (fun mem => ?_) _ _
  rcases List.mem_append.mp mem with mem | mem
  · rcases closes with rfl | rfl <;> simp at mem
  · exact open_end mem

/-- Two escaped texts have no tags together if the first one does not begin any. -/
theorem tagsFrom_escape_escape {s : String} (no_bracket : '[' ∉ s.toList) {between : List Char}
    (clear : ∀ c ∈ between, c ≠ '[' ∧ c ≠ '\\') (apart : between ≠ []) (t : String)
    (position : Nat) :
    tagsFrom position ((escape s).toList ++ (between ++ (escape t).toList)) = [] := by
  obtain ⟨ending, closes, whole⟩ := exists_toList_escape s
  have no_bracket' : '[' ∉ (escape s).toList := by
    intro mem
    rcases mem_of_mem_escape mem with slash | mem
    · cases slash
    · exact no_bracket mem
  obtain ⟨c, more, split⟩ := List.exists_cons_of_ne_nil apart
  have stops : ∀ d ∈ (between ++ (escape t).toList).head?, d ≠ '[' ∧ d ≠ '\\' := by
    intro d first
    rw [split] at first
    cases first
    exact clear c (by rw [split]; exact List.mem_cons_self)
  have last := tagsFrom_escape (List.not_mem_nil : ']' ∉ []) t
  simp only [List.append_nil] at last
  rw [tagsFrom_append_of_not_mem no_bracket' stops, tagsFrom_append clear, last]

/-! ## Accepted texts -/

/-- Only the tags of a text decide whether it is refused, and why. -/
theorem faultOf_plainOf (opened : List Tag) (pieces : List Piece) :
    faultOf (plainOf opened pieces) = faultOf (plainOf opened (pieces.filter Piece.isTag)) := by
  induction pieces generalizing opened with
  | nil => rfl
  | cons piece pieces ih =>
    cases piece with
    | plain text =>
      rw [List.filter_cons_of_neg (by simp [Piece.isTag]), ← ih opened, plainOf]
      cases plainOf opened pieces <;> rfl
    | tag position inside =>
      rw [List.filter_cons_of_pos rfl, plainOf, plainOf]
      dsimp only
      split
      · simp only [faultOf_bind, ih]
      · simp only [faultOf_bind, ih]

theorem checkLooks_filter (pieces : List Piece) :
    checkLooks (pieces.filter Piece.isTag) = checkLooks pieces := by
  unfold checkLooks
  induction pieces with
  | nil => rfl
  | cons piece pieces ih =>
    cases piece with
    | plain text =>
      rw [List.filter_cons_of_neg (by simp [Piece.isTag]), ih]
      rfl
    | tag position inside =>
      rw [List.filter_cons_of_pos rfl]
      change (_ >>= fun _ => (pieces.filter Piece.isTag).forM _) = (_ >>= fun _ => pieces.forM _)
      rw [ih]

/-- A part of a text as it is at the start of one. -/
def Piece.atStart : Piece → Piece
  | .plain text => .plain text
  | .tag _ inside => .tag 0 inside

theorem closing_eq_ok_at_start (position : Nat) {inside : List Char} {name : String}
    {opened : List Tag} {closed : Tag × List Tag} :
    closing inside 0 name opened = .ok closed ↔ closing inside position name opened = .ok closed := by
  unfold closing
  split
  · cases opened <;> simp
  · simp only [bind_eq_ok]
    refine exists_congr fun normal => and_congr_right fun _ => ?_
    cases opened.find? (·.name = normal) <;> simp

/-- Where the tags of a text stand does not matter to its being accepted. -/
theorem plainOf_atStart {opened : List Tag} {pieces : List Piece} {text : List Char} :
    plainOf opened (pieces.map Piece.atStart) = .ok text ↔ plainOf opened pieces = .ok text := by
  induction pieces generalizing opened text with
  | nil => rfl
  | cons piece pieces ih =>
    cases piece with
    | plain plain =>
      rw [List.map_cons, Piece.atStart, plainOf, plainOf]
      cases same : plainOf opened pieces with
      | ok behind => rw [ih.mpr same]
      | error problem =>
        cases other : plainOf opened (pieces.map Piece.atStart) with
        | error problem' => exact ⟨fun h => (by cases h), fun h => (by cases h)⟩
        | ok behind =>
          rw [ih.mp other] at same
          cases same
    | tag position inside =>
      rw [List.map_cons, Piece.atStart, plainOf, plainOf]
      dsimp only
      split
      · simp only [bind_eq_ok, ih, closing_eq_ok_at_start position]
      · simp only [bind_eq_ok, ih]

theorem checkLooks_atStart (pieces : List Piece) :
    checkLooks (pieces.map Piece.atStart) = checkLooks pieces := by
  unfold checkLooks
  induction pieces with
  | nil => rfl
  | cons piece pieces ih =>
    rw [List.map_cons]
    change (_ >>= fun _ => (pieces.map Piece.atStart).forM _) = (_ >>= fun _ => pieces.forM _)
    rw [ih]
    cases piece <;> rfl

/-- A text is accepted if its tags are. -/
theorem plain_isOk {s : String} {tags : List Piece} {text : List Char}
    (found : (tagsFrom 0 s.toList).map Piece.atStart = tags) (closes : plainOf [] tags = .ok text)
    (looks : checkLooks tags = .ok ()) : ∃ shown, plain s = .ok shown := by
  rw [← found, plainOf_atStart] at closes
  rw [← found, checkLooks_atStart, tagsFrom, checkLooks_filter] at looks
  unfold plain
  split
  · have accepted : faultOf (plainOf [] (piecesFrom 0 0 s.toList)) = none := by
      rw [faultOf_plainOf]
      exact faultOf_eq_none.mpr ⟨text, closes⟩
    obtain ⟨text', closes'⟩ := faultOf_eq_none.mp accepted
    exact ⟨_, bind_eq_ok.mpr ⟨text', closes', bind_eq_ok.mpr ⟨(), looks, rfl⟩⟩⟩
  · exact ⟨s, rfl⟩

/-- A name that can open and close a part of a text. -/
def IsPaired (name : List Char) : Prop :=
  IsInside name ∧ IsInside ('/' :: name) ∧
    plainOf [] [.tag 0 name, .tag 0 ('/' :: name)] = .ok [] ∧
    checkLooks [.tag 0 name, .tag 0 ('/' :: name)] = .ok ()

instance (name : List Char) : Decidable (IsPaired name) := inferInstanceAs (Decidable (_ ∧ _))

/-- A text without tags is accepted behind a part that is marked. -/
theorem plain_marked {s : String} {front text : List Char} (before name marked between : List Char)
    (paired : IsPaired name) (clear : ∀ c ∈ before ++ marked ++ between, c ≠ '[' ∧ c ≠ '\\')
    (no_tags : ∀ position, tagsFrom position text = []) (split : s.toList = front ++ text)
    (marks : front = before ++ '[' :: (name ++ ']' :: (marked ++
      '[' :: (('/' :: name) ++ ']' :: between)))) :
    ∃ shown, plain s = .ok shown := by
  obtain ⟨opens, closes, accepted, looks⟩ := paired
  have opening := tagsFrom_tag opens 0
  have ending := tagsFrom_tag closes 0
  simp only [List.replicate_zero, List.nil_append] at opening ending
  have clearBefore : ∀ c ∈ before, c ≠ '[' ∧ c ≠ '\\' := fun c mem => clear c (by simp [mem])
  have clearMarked : ∀ c ∈ marked, c ≠ '[' ∧ c ≠ '\\' := fun c mem => clear c (by simp [mem])
  have clearBetween : ∀ c ∈ between, c ≠ '[' ∧ c ≠ '\\' := fun c mem => clear c (by simp [mem])
  refine plain_isOk ?_ accepted looks
  rw [split, marks]
  simp only [List.append_assoc, List.cons_append] at ending ⊢
  rw [tagsFrom_append clearBefore, opening, tagsFrom_append clearMarked, ending,
    tagsFrom_append clearBetween, no_tags]
  rfl

end Branchwork.Markup
