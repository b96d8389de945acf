import Branchwork.Text.Blank
import Branchwork.World
import Branchwork.Yaml.Load

/-!
# Flags on the command line

A flag is written `key=value`. Blanks around the key do not count, and the value is YAML; where
nothing is written the value is the empty text. A key that is given again keeps its place and takes
the new value.
-/

namespace Branchwork.Command

/-- The value of a flag. -/
def flagValue (written : List Char) : Except Fault Value :=
  if written.isEmpty then .ok (.text "")
  else (Yaml.load (String.ofList written)).mapError .yaml

/-- The key and the value of a flag. -/
def readFlag (flag : String) : Except Fault (String × Value) :=
  let key := flag.toList.takeWhile (· ≠ '=')
  match flag.toList.dropWhile (· ≠ '=') with
  | _ :: written => (flagValue written).map fun v => (String.ofList (Text.trim key), v)
  | [] => .error (.badFlag flag)

/-- Reads flags, put in order behind those in `read`. -/
def readFlagsBehind (read : Mapping) : List String → Except Fault Mapping
  | [] => .ok read
  | flag :: rest =>
    match readFlag flag with
    | .ok (key, v) => readFlagsBehind (Mapping.put (.text key) v read) rest
    | .error fault => .error fault

/-- Reads flags. -/
def readFlags (flags : List String) : Except Fault Mapping := readFlagsBehind [] flags

end Branchwork.Command
