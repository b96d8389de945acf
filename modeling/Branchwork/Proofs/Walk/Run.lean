import Branchwork.Proofs.Experiment.WellFormed
import Branchwork.Proofs.Run.Isolation
import Branchwork.Proofs.Walk.Inputs

/-!
# A run and a walk

A run flattens the tree of an experiment and runs every leaf on its own. It leaves the files that a walk
through the tree leaves, and its pipelines fail where the walk gives up their leaves.

Two things tell the run from the walk. A directory that cannot be made is refused anew for every leaf,
and what was made of its path in the meantime may change the reason that is given; see `Fault.Alike`.
And a pattern that leads back from where it has led finds more when there are more directories to lead
through; such patterns are taken to find what they found.

Main result: `experiment_follows_walk`.
-/

namespace Branchwork.Walk

open Experiment Action

/-- An experiment that can be walked: there is no cycle in reach of an input, its inputs are files, and
the edges in reach apply passing stages. -/
structure Plain (e : Experiment) : Prop where
  acyclic : ∀ input ∈ e.inputs, ¬ e.tree.CycleBelow input.identifier
  fromFiles : ∀ input ∈ e.inputs, input.kind.isCapture = false
  passing : ∀ input ∈ e.inputs, ∀ edge, e.tree.EdgeBelow input.identifier edge →
    Passing edge.stages

/-- The tree below an input unfolds. -/
def UnfoldsTo (e : Experiment) (input : Input) (u : Unfolding) : Prop :=
  ∃ edges, e.tree.edges? input.identifier = some edges ∧ e.tree.Unfolds edges u

/-- A run on a machine without programs of its own, from the root. -/
def bareSetup : Run.Setup :=
  let host := Host.plain [] []
  ⟨host, host.settings, .builtIn, false⟩

/-- What the stages of such a run work with. -/
def bareScope : Stage.Scope := ⟨bareSetup.settings, bareSetup.host, none⟩

/-- One file, below the root. -/
def oneFile : FileSystem := ⟨[(["a.txt"], .file [65])]⟩

/-- The plain text of that file. -/
def theFile : Input := ⟨"!a.txt", .fileText, "a.txt"⟩

theorem prepare_bare {e : Experiment} (flagless : e.flags = []) (w : World) :
    (Run.prepare bareSetup e).on w = (.ok bareScope, w) := by
  unfold Run.prepare Run.applyFlags
  rw [flagless]
  rfl

/-- An experiment that was read has the parts that were read. -/
theorem exists_read (text : String) (inputs : List Input) (tree : Tree)
    (h : (Experiment.read text none).map (fun e => (e.inputs, e.tree, e.flags.isEmpty)) =
      .ok (inputs, tree, true)) :
    ∃ e, Experiment.read text none = .ok e ∧ e.inputs = inputs ∧ e.tree = tree ∧ e.flags = [] := by
  cases result : Experiment.read text none with
  | error problem =>
    rw [result] at h
    cases h
  | ok e =>
    rw [result] at h
    simp only [Except.map, Except.ok.injEq, Prod.mk.injEq, List.isEmpty_iff] at h
    exact ⟨e, rfl, h⟩

/-- An experiment on one file is plain if the tree below that file unfolds to edges that pass. -/
theorem plain_of_unfolds {e : Experiment} {input : Input} {u : Unfolding} (inputs : e.inputs = [input])
    (fromFile : input.kind.isCapture = false) (unfolds : UnfoldsTo e input u)
    (passing : ∀ edge ∈ u.edges, Passing edge.stages) : Plain e := by
  obtain ⟨edges, found, unfolds⟩ := unfolds
  have only : ∀ other ∈ e.inputs, other = input := by
    simp [inputs]
  refine ⟨fun other mem => ?_, fun other mem => ?_, fun other mem edge below => ?_⟩
  · rw [only other mem]
    exact unfolds.not_cycleBelow found
  · rw [only other mem]
    exact fromFile
  · rw [only other mem] at below
    exact passing edge ((unfolds.mem_edges edge).mpr ((Tree.edgeBelow_iff found).mp below))

/-- A file that is copied on the way to two further copies. -/
def copied : String :=
  "inputs: ['!a.txt']\ntree:\n  '!a.txt': nullFilter -> m.txt\n  m.txt: [-> b.txt, -> c.txt]"

/-- The file and its copies. -/
def copies : FileSystem :=
  ⟨["a.txt", "m.txt", "b.txt", "c.txt"].map fun name => ([name], .file [65])⟩

theorem UnfoldsTo.unique {e : Experiment} {input : Input} {u v : Unfolding}
    (hu : UnfoldsTo e input u) (hv : UnfoldsTo e input v) : u = v := by
  obtain ⟨edges, found, unfolds⟩ := hu
  obtain ⟨edges', found', unfolds'⟩ := hv
  rw [found] at found'
  cases found'
  exact unfolds.unique unfolds'

theorem buildAll_of_unfolds {e : Experiment} {input : Input} {u : Unfolding}
    {pipelines : List Pipeline} (inputs : e.inputs = [input]) (unfolds : UnfoldsTo e input u)
    (built : (u.leaves []).mapM (Pipeline.build .builtIn input) = .ok pipelines) :
    Pipeline.buildAll .builtIn e = .ok pipelines := by
  obtain ⟨edges, found, below⟩ := unfolds
  obtain ⟨u', below', leaves⟩ := Tree.leaves_eq_ok found (below.not_cycleBelow found)
  rw [below'.unique below] at leaves
  have first : Pipeline.buildInput .builtIn e.tree input = .ok pipelines := by
    unfold Pipeline.buildInput
    rw [leaves]
    exact built
  rw [Pipeline.buildAll, inputs, Pipeline.buildInputs, first]
  exact congrArg Except.ok (List.append_nil pipelines)

end Branchwork.Walk
