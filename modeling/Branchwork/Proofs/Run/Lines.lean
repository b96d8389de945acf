import Branchwork.Proofs.Console.Markup
import Branchwork.Run

/-!
# Lines about a run

A run tells about itself in lines with tags, into which names and causes are put escaped. The line
for the run, for a pipeline that starts and for one that succeeded are accepted by the console,
whatever the names are. The line for a pipeline that failed holds two escaped texts: a tag that the
label only begins may be ended by the cause, so the line is sure to be accepted only if there is no
opening bracket in the label or no closing bracket in the cause.
-/

namespace Branchwork.Run

open Markup

theorem digits_clear (n : Nat) : ∀ c ∈ (toString n).toList, c ≠ '[' ∧ c ≠ '\\' ∧ c ≠ ']' := by
  intro c mem
  rw [show (toString n).toList = Nat.toDigits 10 n by simp] at mem
  have digit := Nat.isDigit_of_mem_toDigits (by decide) (by decide) mem
  refine ⟨?_, ?_, ?_⟩ <;> rintro rfl <;> exact absurd digit (by decide)

/-- The line that a run starts with is accepted. -/
theorem plain_headLine (name : String) (count : Nat) :
    ∃ shown, plain (headLine name count) = .ok shown := by
  obtain ⟨tail, behind⟩ : ∃ tail, tail = " (".toList ++ ((toString count).toList ++
      (" pipeline".toList ++ ((if count = 1 then "" else "s").toList ++ ")".toList))) := ⟨_, rfl⟩
  have open_end : ']' ∉ tail := by
    rw [behind]
    simp only [List.mem_append, not_or]
    refine ⟨by decide, fun mem => (digits_clear count _ mem).2.2 rfl, by decide, ?_, by decide⟩
    split <;> decide
  have split : (headLine name count).toList =
      "[bold blue]Running experiment:[/bold blue] ".toList ++ ((escape name).toList ++ tail) := by
    rw [behind]
    unfold headLine
    simp only [toString, String.toList_append, List.append_assoc]
  exact plain_marked [] "bold blue".toList "Running experiment:".toList [' ']
    (by decide +kernel) (by simp) (tagsFrom_escape open_end name) split (by decide +kernel)

/-- The line for a pipeline that starts is accepted. -/
theorem plain_startLine (count index : Nat) (label : String) :
    ∃ shown, plain (startLine count index label) = .ok shown := by
  obtain ⟨place, numbers⟩ : ∃ place, place = (toString (index + 1)).toList ++
      ("/".toList ++ (toString count).toList) := ⟨_, rfl⟩
  -- between the tags there are only blanks, digits and a slash
  have clear : ∀ c ∈ "  ".toList ++ place ++ [' '], c ≠ '[' ∧ c ≠ '\\' := by
    intro c mem
    simp only [numbers, List.mem_append] at mem
    rcases mem with (blank | mem | slash | mem) | blank
    · obtain rfl : c = ' ' := by simpa using blank
      decide
    · exact ⟨(digits_clear _ c mem).1, (digits_clear _ c mem).2.1⟩
    · obtain rfl : c = '/' := by simpa using slash
      decide
    · exact ⟨(digits_clear _ c mem).1, (digits_clear _ c mem).2.1⟩
    · obtain rfl : c = ' ' := by simpa using blank
      decide
  have split : (startLine count index label).toList =
      ("  [cyan]".toList ++ (place ++ "[/cyan] ".toList)) ++ ((escape label).toList ++ []) := by
    rw [numbers]
    unfold startLine
    simp only [toString, String.toList_append, List.append_assoc, List.append_nil]
  exact plain_marked "  ".toList "cyan".toList place [' '] (by decide +kernel) clear
    (tagsFrom_escape (by decide) label) split rfl

/-- The line for a pipeline that succeeded is accepted. -/
theorem plain_doneLine (label : String) : ∃ shown, plain (doneLine label) = .ok shown := by
  have split : (doneLine label).toList =
      "    [green]✓[/green] ".toList ++ ((escape label).toList ++ " (0ms)".toList) := by
    unfold doneLine
    simp only [toString, String.toList_append, List.append_assoc]
  exact plain_marked "    ".toList "green".toList "✓".toList [' '] (by decide +kernel)
    (by simp) (tagsFrom_escape (by decide) label) split (by decide +kernel)

/-- The line for a pipeline that failed is accepted unless the label begins what the cause may end:
a tag. -/
theorem plain_failureLine (label : String) (cause : Fault)
    (apart : '[' ∉ label.toList ∨ ']' ∉ cause.message.toList) :
    ∃ shown, plain (failureLine label cause) = .ok shown := by
  have split : (failureLine label cause).toList = "    [red]✗[/red] ".toList ++
      ((escape label).toList ++ (": ".toList ++ (escape cause.message).toList)) := by
    unfold failureLine
    simp only [toString, String.toList_append, List.append_assoc]
  refine plain_marked "    ".toList "red".toList "✗".toList [' '] (by decide +kernel)
    (by simp) (fun position => ?_) split (by decide +kernel)
  rcases apart with no_opening | no_closing
  · exact tagsFrom_escape_escape no_opening (by simp) (by decide) _ _
  · refine tagsFrom_escape (fun mem => ?_) _ _
    rcases List.mem_append.mp mem with mem | mem
    · exact absurd mem (by decide)
    · rcases mem_of_mem_escape mem with slash | mem
      · exact absurd slash (by decide)
      · exact no_closing mem

example : plainOf [] (piecesFrom 0 0 (failureLine "* -> [/x" (.sameName "a]" "b" "[/x")).toList) =
    .error (.unmatched "[/x: Keys 'a]" 22) := by decide +kernel

end Branchwork.Run
