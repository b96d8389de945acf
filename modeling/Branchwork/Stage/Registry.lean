/-!
# Registries

A registry finds a stage by the name that it is registered under. Registering a name again replaces
the stage there and keeps the place of the name. A catalogue keeps several registries by name, and
for each stage its label: the name that it was last registered under, in whichever registry.
-/

namespace Branchwork

/-- The stages registered under names, in order of registration. -/
structure Registry (σ : Type) where
  entries : List (String × σ)

/-- A name that is not registered, and the names that are. -/
structure Registry.Unknown where
  name : String
  known : List String
deriving DecidableEq, Repr

namespace Registry

variable {σ : Type}

/-- The registry without stages. -/
def empty : Registry σ := ⟨[]⟩

/-- Puts a stage under a name. -/
def putEntry (name : String) (stage : σ) : List (String × σ) → List (String × σ)
  | [] => [(name, stage)]
  | (n, s) :: rest => if n = name then (n, stage) :: rest else (n, s) :: putEntry name stage rest

/-- Registers a stage under a name. -/
def register (r : Registry σ) (name : String) (stage : σ) : Registry σ :=
  ⟨putEntry name stage r.entries⟩

/-- The registered names, in order. -/
def names (r : Registry σ) : List String := r.entries.map (·.1)

/-- Whether a name is registered. -/
def isRegistered (r : Registry σ) (name : String) : Bool := (r.entries.lookup name).isSome

/-- The stage under a name. -/
def lookup (r : Registry σ) (name : String) : Except Unknown σ :=
  (r.entries.lookup name).elim (.error ⟨name, r.names⟩) .ok

/-- The registry with the given stages, registered in order. -/
def ofList (stages : List (String × σ)) : Registry σ :=
  stages.foldl (fun r (name, stage) => r.register name stage) empty

end Registry

/-- Registries by name, and the labels of stages. -/
structure Catalogue (σ : Type) where
  registries : List (String × Registry σ)
  labels : List (σ × String)

namespace Catalogue

variable {σ : Type}

/-- The registry with a name; one that is not there is empty. -/
def registry (c : Catalogue σ) (name : String) : Registry σ :=
  (c.registries.lookup name).getD .empty

/-- Puts a registry under a name. -/
def putRegistry (name : String) (r : Registry σ) :
    List (String × Registry σ) → List (String × Registry σ)
  | [] => [(name, r)]
  | (n, s) :: rest => if n = name then (n, r) :: rest else (n, s) :: putRegistry name r rest

/-- Registers a stage under a name in one of the registries. -/
def register (c : Catalogue σ) (registry name : String) (stage : σ) : Catalogue σ :=
  { registries := putRegistry registry ((c.registry registry).register name stage) c.registries
    labels := (stage, name) :: c.labels }

/-- Makes a registry with the same stages as another one. -/
def copy (c : Catalogue σ) (source target : String) : Catalogue σ :=
  { c with registries := putRegistry target (c.registry source) c.registries }

/-- The label of a stage. -/
def label [BEq σ] (c : Catalogue σ) (stage : σ) : Option String := c.labels.lookup stage

/-- The names of the registries, in ascending order. -/
def names (c : Catalogue σ) : List String :=
  (c.registries.map (·.1)).mergeSort fun a b => a ≤ b

end Catalogue

end Branchwork
