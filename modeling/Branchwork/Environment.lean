/-!
# Environments

The variables that a program is started with, in order of definition, each name once.
-/

namespace Branchwork

/-- Variables with their values. -/
abbrev Environment := List (String × String)

namespace Environment

/-- The value of a variable. -/
def get? (env : Environment) (name : String) : Option String := env.lookup name

/-- Defines a variable; one that is defined keeps its place. -/
def put (name value : String) : Environment → Environment
  | [] => [(name, value)]
  | (n, v) :: rest => if n = name then (n, value) :: rest else (n, v) :: put name value rest

/-- The variables as a program gets them: a null character ends a value. -/
def handed (env : Environment) : Environment :=
  env.map fun (name, value) => (name, String.ofList (value.toList.takeWhile (· ≠ '\x00')))

end Environment

end Branchwork
