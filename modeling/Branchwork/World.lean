import Branchwork.Console.Screen
import Branchwork.Failure

/-!
# The world around a run

What a run reads and changes: the files, the messages that it logs, what it shows on the console,
the captures that it asks for, and the notices that it gives of what has ended. An action changes
the world and gives a result or fails; what it did before it failed stays done.
-/

namespace Branchwork

/-- How important a message is. -/
inductive Level where
  | info
  | warning
  | error
deriving DecidableEq, Repr

/-- The word for a level. -/
def Level.name : Level → String
  | .info => "INFO"
  | .warning => "WARNING"
  | .error => "ERROR"

/-- A logged message. -/
structure LogRecord where
  level : Level
  message : String
deriving DecidableEq, Repr

/-- The notice that something has ended: a pipeline, well or with a failure, or a whole run. -/
inductive Notice where
  | pipelineDone (label : String)
  | pipelineFailed (failure : Failure)
  | runDone (result : RunResult)

/-- The state around a run. Messages, shown text, captures and notices come in order. -/
structure World where
  files : FileSystem
  log : List LogRecord
  shown : String
  captures : List (Value × Bool)
  notices : List Notice

/-- What changes the world and may fail. -/
abbrev Action (α : Type) := ExceptT Fault (StateM World) α

namespace World

/-- The world with the given files, before anything has happened. -/
def start (files : FileSystem) : World := ⟨files, [], "", [], []⟩

end World

namespace Action

/-- Fails. -/
def fail {α : Type} (fault : Fault) : Action α := throw fault

/-- What an action comes to, as a result that does not fail. -/
def attempt {α : Type} (action : Action α) : Action (Except Fault α) := ExceptT.lift action.run

/-- The files. -/
def files : Action FileSystem := return (← get).files

/-- Changes the files. -/
def setFiles (files : FileSystem) : Action Unit := modify fun w => { w with files }

/-- Logs a message. -/
def log (level : Level) (message : String) : Action Unit :=
  modify fun w => { w with log := w.log ++ [⟨level, message⟩] }

/-- Gives a notice. -/
def giveNotice (notice : Notice) : Action Unit :=
  modify fun w => { w with notices := w.notices ++ [notice] }

/-- Notes a capture that is asked for. -/
def noteCapture (address : Value) (styled : Bool) : Action Unit :=
  modify fun w => { w with captures := w.captures ++ [(address, styled)] }

/-- Shows a text on the console. -/
def print (text : String) : Action Unit :=
  modify fun w => { w with shown := w.shown ++ Console.shown text }

/-- Shows a text with tags on the console. -/
def printMarkup (text : String) : Action Unit := do
  match Markup.plain text with
  | .ok plain => print plain
  | .error problem => fail (.markup problem)

/-- The result of a step that cannot change the world. -/
def ofExcept {ε α : Type} (wrap : ε → Fault) : Except ε α → Action α
  | .ok a => pure a
  | .error e => fail (wrap e)

/-- What a path leads to, if it leads to anything. -/
def look (current : Location) (p : Path) : Action (Option (Location × FileSystem.Entry)) := do
  ofExcept .files ((← files).look current p)

/-- The result of a view of a value. -/
def ofShape {α : Type} : Except ShapeProblem α → Action α := ofExcept .shape

end Action

end Branchwork
