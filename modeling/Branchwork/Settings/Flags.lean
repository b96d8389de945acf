import Branchwork.Settings.Basic

/-!
# Flags

The flags of an experiment override the settings that it is run with. Each flag that takes the place
of a value is worth a warning. A flag needs a text for its name.
-/

namespace Branchwork.Settings

/-- The options of settings as a mapping. -/
def mapping (s : Settings) : Mapping := s.dump.map fun (name, v) => (.text name, v)

/-- The warning for a flag that takes the place of a value; none if a value is overlong. -/
def overrideWarning (key old new : Value) : Option String := do
  let name ← key.plain?
  let before ← old.plain?
  let now ← new.plain?
  return s!"Overriding option {name} from commandline value {before} to {now}"

/-- The warnings for flags put into options in order. -/
def overrideWarnings (options : Mapping) : Mapping → List (Option String)
  | [] => []
  | (key, v) :: rest =>
    let warning := match Mapping.get? key options with
      | none | some .null => []
      | some old => [overrideWarning key old v]
    warning ++ overrideWarnings (Mapping.put key v options) rest

/-- The warnings for flags applied to settings. -/
def warnings (s : Settings) (flags : Mapping) : List (Option String) :=
  overrideWarnings s.mapping flags

/-- The flags put into options in order. -/
def applied (options flags : Mapping) : Mapping :=
  flags.foldl (fun options (key, v) => Mapping.put key v options) options

/-- The entries of a mapping whose keys are texts, if all of them are. -/
def named? : Mapping → Option (List (String × Value))
  | [] => some []
  | (.text name, v) :: rest => (named? rest).map ((name, v) :: ·)
  | _ :: _ => none

/-- Why flags cannot be applied. -/
inductive FlagFault where
  | nameless
  | invalid (faults : List Fault)

/-- The settings with flags applied. -/
def withFlags (s : Settings) (flags : Mapping) : Except FlagFault Settings :=
  if flags.isEmpty then .ok s
  else
    match named? (applied s.mapping flags) with
    | none => .error .nameless
    | some options => (ofOptions s options).mapError .invalid

end Branchwork.Settings
