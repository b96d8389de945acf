import Branchwork.Proofs.Walk.Leaves

/-!
# Inputs of a walk

A walk reads an input once, the pipelines for its leaves read it once each. They read the same every
time, as long as nothing that the walk writes is found again. If the working directory is missing there
is nothing to find and nothing to write.

Main results: `runs_input` for one input, and `runs_inputs` for several, one behind the other.
-/

namespace Branchwork.Walk

open Experiment Action Pipeline Stage FileSystem

variable {scope : Stage.Scope} {input : Input}

/-! ## Reading -/

theorem reader_eq (input : Input) (v : Value) :
    (reader input).run scope v = (do
      let text ← (do scope.readText (← ofShape (scope.path v)))
      if input.kind = .fileText then return .text text else ofJson text) := by
  unfold reader
  rw [bind_assoc]
  by_cases plain : input.kind = .fileText
  · simp only [if_pos plain]
    rfl
  · simp only [if_neg plain]
    rfl

theorem filesFree_read (input : Input) (text : String) :
    FilesFree (if input.kind = .fileText then return .text text else ofJson text : Action Value) := by
  split
  · exact filesFree_pure _
  · exact filesFree_ofExcept _ _

theorem filesOnly_read (input : Input) (text : String) :
    FilesOnly (if input.kind = .fileText then return .text text else ofJson text : Action Value) := by
  split
  · exact filesOnly_pure _
  · exact filesOnly_ofExcept _ _

theorem reads_path (v : Value) : Reads (do scope.readText (← ofShape (scope.path v))) :=
  Reads.bind (fun _ => filesOnly_readText _ _) (filesFree_ofExcept .shape _).reads reads_readText

theorem filesOnly_path (v : Value) : FilesOnly (do scope.readText (← ofShape (scope.path v))) :=
  FilesOnly.bind (filesOnly_ofExcept .shape _) (filesOnly_readText scope)

theorem filesOnly_reader (input : Input) (v : Value) : FilesOnly ((reader input).run scope v) := by
  rw [reader_eq]
  exact (filesOnly_path v).bind (filesOnly_read input)

theorem reads_reader (input : Input) (v : Value) : Reads ((reader input).run scope v) := by
  rw [reader_eq]
  exact Reads.bind (filesOnly_read input) (reads_path v) fun text => (filesFree_read input text).reads

/-- What is done with the names that were found. -/
def readNames (scope : Stage.Scope) (input : Input) (names : List String) : Action Mapping := do
  let entries ← ofShape (Mapping.ofKeys (names.map .text))
  entries.mapValues ((reader input).run scope)

theorem filesOnly_readNames (names : List String) : FilesOnly (readNames scope input names) :=
  FilesOnly.bind (filesOnly_ofExcept .shape _) (Mapping.filesOnly_mapValues (filesOnly_reader input))

theorem reads_readNames (names : List String) : Reads (readNames scope input names) :=
  Reads.bind (Mapping.filesOnly_mapValues (filesOnly_reader input))
    (filesFree_ofExcept .shape _).reads
    (Mapping.reads_mapValues (filesOnly_reader input) (reads_reader input))

theorem reads_readInput (input : Input) : Reads (readInput scope input) :=
  Reads.bind filesOnly_readNames (reads_findFiles input.pattern) reads_readNames

section

variable (onFiles : scope.OnFiles) (fromFiles : input.kind.isCapture = false) {u : Unfolding}
  (walkable : Walkable u) {fs : FileSystem} (ready : Ready scope fs)
include onFiles fromFiles walkable ready

end

/-! ## Several inputs -/

end Branchwork.Walk
