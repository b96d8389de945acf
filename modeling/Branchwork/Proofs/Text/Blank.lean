import Branchwork.Text.Blank
import Mathlib.Data.Bool.AllAny
import Mathlib.Data.List.DropRight
import Mathlib.Data.List.TakeWhile
import Mathlib.Tactic.Common

/-!
# Runs of characters, blanks and words

What a run of characters leaves behind, what is left of a text without the characters of a kind at its
ends, blanks for one, and which words a text is made of.

Main results:

* `Text.takeWhile_run`, `Text.dropWhile_run` — a run is taken up to its end.
* `Text.dropEnds_eq_iff` — what is left without the ends.
* `Text.trim_first`, `Text.trim_last`, `Text.trim_trim` — trimming once is trimming for good.
* `Text.words_spaced` — words with blanks between them are found again.
-/

namespace Branchwork.Text

/-! ## Runs of characters -/

section

variable {p : Char → Bool} {s run rest : List Char}

theorem dropWhile_eq_self (first : ∀ c ∈ s.head?, p c = false) : s.dropWhile p = s := by
  cases s with
  | nil => rfl
  | cons c s => rw [List.dropWhile_cons, if_neg (by simp [first c rfl])]

/-- What is left behind leading letters of a kind does not begin with one. -/
theorem head?_dropWhile_eq : ∀ c ∈ (s.dropWhile p).head?, p c = false := by
  intro c mem
  have first := List.head?_dropWhile_not p s
  rw [Option.mem_def.mp mem] at first
  exact first

theorem takeWhile_run (all : ∀ c ∈ run, p c = true) (ends : ∀ c ∈ rest.head?, p c = false) :
    (run ++ rest).takeWhile p = run := by
  rw [List.takeWhile_append_of_pos all]
  cases rest with
  | nil => simp
  | cons c rest => simp [ends c rfl]

theorem dropWhile_run (all : ∀ c ∈ run, p c = true) (ends : ∀ c ∈ rest.head?, p c = false) :
    (run ++ rest).dropWhile p = rest := by
  rw [List.dropWhile_append_of_pos all, dropWhile_eq_self ends]

end

/-! ## Ends -/

section

variable {p : Char → Bool} {s t : List Char}

/-- A text without the characters of a kind at its ends. -/
def dropEnds (p : Char → Bool) (s : List Char) : List Char := (s.dropWhile p).rdropWhile p

theorem getLast?_dropEnds : ∀ c ∈ (dropEnds p s).getLast?, p c = false := by
  intro c mem
  rw [dropEnds, List.rdropWhile, List.getLast?_reverse] at mem
  exact head?_dropWhile_eq c mem

theorem head?_dropEnds : ∀ c ∈ (dropEnds p s).head?, p c = false := by
  intro c mem
  -- what is dropped at the end leaves the first letter, as long as a letter is left
  obtain ⟨rest, same⟩ : ∃ rest, dropEnds p s = c :: rest := by
    cases dropped : dropEnds p s with
    | nil => rw [dropped] at mem; cases mem
    | cons d rest => rw [dropped] at mem; cases mem; exact ⟨rest, rfl⟩
  obtain ⟨more, left⟩ : dropEnds p s <+: s.dropWhile p := List.rdropWhile_prefix p _
  refine head?_dropWhile_eq (s := s) c ?_
  rw [← left, same]
  rfl

/-- A text that does not begin or end with a character of the kind stays as it is. -/
theorem dropEnds_eq_self (first : ∀ c ∈ s.head?, p c = false)
    (last : ∀ c ∈ s.getLast?, p c = false) : dropEnds p s = s := by
  have backwards : ∀ c ∈ s.reverse.head?, p c = false := by rwa [List.head?_reverse]
  rw [dropEnds, dropWhile_eq_self first, List.rdropWhile, dropWhile_eq_self backwards,
    List.reverse_reverse]

/-- What is dropped are characters of the kind, in front and behind. -/
theorem exists_dropEnds (p : Char → Bool) (s : List Char) :
    ∃ front back, s = front ++ dropEnds p s ++ back ∧ ∀ c ∈ front ++ back, p c = true := by
  refine ⟨s.takeWhile p, (s.dropWhile p).rtakeWhile p, ?_, fun c mem => ?_⟩
  · rw [List.append_assoc, dropEnds, List.rdropWhile_append_rtakeWhile, List.takeWhile_append_dropWhile]
  · rcases List.mem_append.mp mem with mem | mem
    · exact List.mem_takeWhile_imp mem
    · exact List.mem_rtakeWhile_imp mem

theorem dropEnds_eq_iff (ne : t ≠ []) (first : ∀ c ∈ t.head?, p c = false)
    (last : ∀ c ∈ t.getLast?, p c = false) :
    dropEnds p s = t ↔ ∃ front back, s = front ++ t ++ back ∧ ∀ c ∈ front ++ back, p c = true := by
  constructor
  · rintro rfl
    exact exists_dropEnds p s
  · rintro ⟨front, back, rfl, all⟩
    rw [List.forall_mem_append] at all
    have first' : ∀ c ∈ (t ++ back).head?, p c = false := by
      rwa [List.head?_append_of_ne_nil _ ne]
    have last' : ∀ c ∈ t.reverse.head?, p c = false := by rwa [List.head?_reverse]
    have behind : ∀ c ∈ back.reverse, p c = true := fun c mem => all.2 c (List.mem_reverse.mp mem)
    rw [dropEnds, List.append_assoc, dropWhile_run all.1 first', List.rdropWhile, List.reverse_append,
      dropWhile_run behind last', List.reverse_reverse]

end

/-! ## Blanks at the ends -/

theorem trim_blank {b : Char} (blank : isBlank b = true) (s : List Char) : trim (b :: s) = trim s := by
  rw [trim, trim, trimLeft, trimLeft, List.dropWhile_cons, if_pos blank]

theorem trim_first {s : List Char} : ∀ c ∈ (trim s).head?, isBlank c = false := head?_dropEnds

theorem trim_last {s : List Char} : ∀ c ∈ (trim s).getLast?, isBlank c = false := getLast?_dropEnds

/-- A text without blanks at its ends is trimmed already. -/
theorem trim_of_ends {s : List Char} (first : ∀ c ∈ s.head?, isBlank c = false)
    (last : ∀ c ∈ s.getLast?, isBlank c = false) : trim s = s := dropEnds_eq_self first last

theorem trim_trim (s : List Char) : trim (trim s) = trim s := trim_of_ends trim_first trim_last

/-! ## Words -/

/-- A word: at least one letter, and no blank among them. -/
structure IsWord (letters : List Char) : Prop where
  ne_nil : letters ≠ []
  solid : ∀ c ∈ letters, isBlank c = false

instance (letters : List Char) : Decidable (IsWord letters) :=
  decidable_of_iff (letters ≠ [] ∧ letters.all (!isBlank ·) = true)
    ⟨fun ⟨ne_nil, solid⟩ => ⟨ne_nil, by simpa using solid⟩,
      fun isWord => ⟨isWord.ne_nil, by simpa using isWord.solid⟩⟩

theorem wordsFrom_append {letters : List Char} (solid : ∀ c ∈ letters, isBlank c = false)
    (word s : List Char) : wordsFrom word (letters ++ s) = wordsFrom (letters.reverse ++ word) s := by
  induction letters generalizing word with
  | nil => rfl
  | cons c letters ih =>
    have letter : isBlank c = false := solid c List.mem_cons_self
    rw [List.cons_append, wordsFrom, if_neg (by simp [letter]),
      ih fun other mem => solid other (List.mem_cons_of_mem _ mem)]
    simp

/-- A word ends in front of a blank. -/
theorem words_append {word : List Char} (isWord : IsWord word) {b : Char} (blank : isBlank b = true)
    (s : List Char) : words (word ++ b :: s) = word :: words s := by
  rw [words, wordsFrom_append isWord.solid, List.append_nil, wordsFrom, if_pos blank,
    if_neg (by simpa using isWord.ne_nil), List.reverse_reverse, words]

/-- The words of words with a blank behind each. -/
theorem words_spaced {ws : List (List Char)} (each : ∀ word ∈ ws, IsWord word) :
    words ([' '].intercalate ws ++ [' ']) = ws := by
  induction ws with
  | nil => rfl
  | cons word ws ih =>
    have isWord := each word List.mem_cons_self
    have blank : isBlank ' ' = true := by decide
    cases ws with
    | nil =>
      rw [List.intercalate_singleton, words_append isWord blank]
      rfl
    | cons next ws =>
      have rest := ih fun other mem => each other (List.mem_cons_of_mem _ mem)
      rw [List.intercalate_cons_cons, List.append_assoc, List.append_assoc, List.singleton_append,
        words_append isWord blank, rest]

end Branchwork.Text
