import Branchwork.FileSystem.Basic
import Branchwork.Json.Reader
import Branchwork.Number.Decimal

/-!
# Failed captures

Why the capture of a page fails: the program cannot be started, it takes too long, it ends with a
status other than zero, or what it writes is no JSON. A device of another kind may refuse a page
for a reason of its own.
-/

namespace Branchwork.Capture

/-- A failed capture. -/
inductive Failure where
  | notStarted (program : String) (reason : FileSystem.Fault)
  | timedOut (limit : Binary64)
  | exited (script : String) (status : Int) (errors : String)
  | badJson (url : String) (error : Json.Error)
  | refused (message : String) (status : Int) (errors : String)

namespace Failure

/-- A failure in words. -/
def message : Failure → String
  | .notStarted program reason => s!"Could not start {program}: {reason.message}"
  | .timedOut limit => s!"Capture timed out after {limit.wholeText}s"
  | .exited script status _ => s!"{script} exited with status {status}"
  | .badJson url error => s!"Capture of {url} produced invalid JSON: {error.message}"
  | .refused message _ _ => message

/-- The status that the program ended with, if it ended. -/
def status? : Failure → Option Int
  | .exited _ status _ | .refused _ status _ => some status
  | _ => none

/-- What the program wrote about errors. -/
def errors : Failure → String
  | .exited _ _ errors | .refused _ _ errors => errors
  | _ => ""

end Failure

end Branchwork.Capture
