import Branchwork.Calendar
import Branchwork.Number.Binary64
import Branchwork.Path

/-!
# Values

The values that experiments are written in and that flow through pipelines: what JSON and YAML can
say, with pairs and paths. A mapping is the list of its entries in order of insertion; its keys are
values, and two keys that are equal (`Value.equals`) do not occur in it together, which
`Mapping.put` takes care of.
-/

namespace Branchwork

/-- A value. -/
inductive Value where
  | null
  | bool (b : Bool)
  | int (i : Int)
  | float (x : Binary64)
  | text (s : String)
  | list (items : List Value)
  | tuple (items : List Value)
  | map (entries : List (Value × Value))
  | path (p : Path)
  | date (d : Date)
  | moment (t : Moment)
  | bytes (b : List UInt8)
  | set (items : List Value)
deriving Inhabited

/-- The entries of a mapping, in order of insertion. -/
abbrev Mapping := List (Value × Value)

namespace Value

/-- The number that a boolean or an integer stands for. -/
def wholeNumber? : Value → Option Int
  | .bool b => some (if b then 1 else 0)
  | .int i => some i
  | _ => none

/-- The number that a value stands for, if it is whole. -/
def exactNumber? : Value → Option Int
  | .float x => x.toInt?
  | v => v.wholeNumber?

mutual

/-- Equality of values. Numbers are equal when they stand for the same number, whatever their
kind; other values are equal to values of their own kind only. -/
def equals : Value → Value → Bool
  | .null, .null => true
  | .text s, .text t => s = t
  | .list xs, .list ys => equalItems xs ys
  | .tuple xs, .tuple ys => equalItems xs ys
  | .map xs, .map ys => equalEntries xs ys
  | .path p, .path q => p = q
  | .date d, .date e => d = e
  | .moment t, .moment u => t.equals u
  | .bytes b, .bytes c => b = c
  | .set xs, .set ys => equalItems xs ys
  | .float x, .float y => x.equals y
  | .float x, v => v.wholeNumber?.isSome && x.toInt? = v.wholeNumber?
  | v, .float y => v.wholeNumber?.isSome && y.toInt? = v.wholeNumber?
  | v, w => v.wholeNumber?.isSome && v.wholeNumber? = w.wholeNumber?

/-- Equality of values place by place. -/
def equalItems : List Value → List Value → Bool
  | [], [] => true
  | x :: xs, y :: ys => x.equals y && equalItems xs ys
  | _, _ => false

/-- Equality of entries place by place. -/
def equalEntries : List (Value × Value) → List (Value × Value) → Bool
  | [], [] => true
  | (k, v) :: xs, (l, w) :: ys => k.equals l && v.equals w && equalEntries xs ys
  | _, _ => false

end

mutual

/-- Whether a value can be a key: every kind but those that hold further values and are not
tuples of keys. -/
def isKey : Value → Bool
  | .list _ | .map _ | .set _ => false
  | .tuple items => areKeys items
  | _ => true

/-- Whether all values can be keys. -/
def areKeys : List Value → Bool
  | [] => true
  | v :: rest => v.isKey && areKeys rest

end

mutual

/-- The kind of the first value in a key that cannot be one, searched from the left. -/
def badKeyKind : Value → String
  | .list _ => "list"
  | .map _ => "dict"
  | .set _ => "set"
  | .tuple items => badItemKind items
  | _ => ""

/-- The kind of the first value that cannot be a key. -/
def badItemKind : List Value → String
  | [] => ""
  | v :: rest => if v.isKey then badItemKind rest else v.badKeyKind

end

/-- The word for the kind of a value. -/
def kind : Value → String
  | .null => "NoneType"
  | .bool _ => "bool"
  | .int _ => "int"
  | .float _ => "float"
  | .text _ => "str"
  | .list _ => "list"
  | .tuple _ => "tuple"
  | .map _ => "dict"
  | .path _ => "PosixPath"
  | .date _ => "date"
  | .moment _ => "datetime"
  | .bytes _ => "bytes"
  | .set _ => "set"

/-- The word for the kind of a value together with the family it belongs to. -/
def qualifiedKind : Value → String
  | .date _ => "datetime.date"
  | .moment _ => "datetime.datetime"
  | v => v.kind

/-- Whether a value counts as true: all but null, false, the zeros and the empty collections. -/
def isTruthy : Value → Bool
  | .null => false
  | .bool b => b
  | .int i => i ≠ 0
  | .float x => !x.isZero
  | .text s => s ≠ ""
  | .list items | .tuple items | .set items => !items.isEmpty
  | .map entries => !entries.isEmpty
  | .bytes b => !b.isEmpty
  | .path _ | .date _ | .moment _ => true

/-- Whether a value is a text. -/
def isText : Value → Bool
  | .text _ => true
  | _ => false

end Value

namespace Mapping

/-- The value under a key. -/
def get? (key : Value) : Mapping → Option Value
  | [] => none
  | (k, v) :: rest => if k.equals key then some v else get? key rest

/-- The value under a text. -/
def find? (entries : Mapping) (key : String) : Option Value := get? (.text key) entries

/-- Puts a value under a key. An entry with an equal key keeps its place and its key; otherwise the
entry comes last. -/
def put (key value : Value) : Mapping → Mapping
  | [] => [(key, value)]
  | (k, v) :: rest =>
    if k.equals key then (k, value) :: rest else (k, v) :: put key value rest

/-- The mapping with the given entries, put in order. -/
def ofPairs (pairs : List (Value × Value)) : Mapping :=
  pairs.foldl (fun entries (k, v) => put k v entries) []

end Mapping

end Branchwork
