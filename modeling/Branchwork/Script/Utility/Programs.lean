import Branchwork.Script.Utility.Files
import Branchwork.Script.Utility.Search
import Branchwork.Script.Utility.Text

/-!
# The utilities by name

A shell finds these programs on its search path. Those of them that can be started by a path lie in
the usual directories.
-/

namespace Branchwork.Script.Utility

/-- The utilities. -/
def programs : List (String × Operation) :=
  [("basename", basename), ("cat", cat), ("cp", carry "cp" false), ("cut", cut),
    ("dirname", dirname), ("echo", echo), ("false", fun _ => return 1), ("grep", grep),
    ("head", ends "head" true), ("ls", ls), ("mkdir", mkdir), ("mv", carry "mv" true),
    ("printf", printf), ("rm", rm), ("rmdir", rmdir), ("sed", sed), ("seq", seq), ("sleep", sleep),
    ("sort", sort), ("tail", ends "tail" false), ("tee", tee), ("touch", touch), ("tr", tr),
    ("true", fun _ => return 0), ("uniq", uniq), ("wc", wc)]

/-- The directories of the programs. -/
def directories : List String := ["/bin/", "/usr/bin/"]

/-- The name of a program that a word asks for, by its name or by its path. -/
def nameOf (word : String) : String :=
  let place := directories.find? fun directory => directory.toList.isPrefixOf word.toList
  place.elim word fun directory => String.ofList (word.toList.drop directory.length)

/-- Whether a search path leads to the programs; without a path a usual one counts. -/
def isSearched (path : Option String) : Bool :=
  path.all fun text => (text.splitOn ":").any fun place =>
    directories.contains (if place.endsWith "/" then place else place ++ "/")

end Branchwork.Script.Utility
