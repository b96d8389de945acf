import Branchwork.Proofs.Run.Starts
import Branchwork.Proofs.Stage.Untouched

/-!
# Pipelines that start alike

Every pipeline reads its input anew when it is started. In between other pipelines have written files,
and among them there may be files that the pattern of the input selects as well: two pipelines for one
input then start from different names or contents (`overwritten_starts_differ`).

If nothing that the pattern selects has been touched from the start of the one to the start of the
other, the two find the same names and read the same contents, or fail at the same unit, however many
other files were written.

Main result: `same_start_of_untouched`.
-/

namespace Branchwork

open Action Experiment

/-- What a pipeline starts with: the names that it finds, the mapping of each name to itself, and the
mapping of each name to what its file holds. If one of the three steps fails there is nothing in its
place, and nothing behind it. -/
def Outcome.start (outcome : Outcome) : List (Option Value) :=
  (outcome.trace.take 3).map (·.result.toOption)

namespace Pipeline

variable {scope : Stage.Scope} {fs g : FileSystem}

/-! ## Traces of the first steps -/

/-- The first steps of a pipeline for a file input. -/
def acquire (input : Input) : List Step :=
  [.fileNames input.pattern, .asKeys, .onValues (.stage (Walk.reader input))]

section

variable {pattern : String} {input : Input}

end

end Pipeline

namespace Run

end Run

end Branchwork
