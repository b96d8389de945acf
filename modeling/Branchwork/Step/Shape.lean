import Branchwork.Value.Display

/-!
# Values of the wrong shape

Each step of a pipeline expects a value of a certain shape: a mapping, a pair, a list, a name. The
views of a value as one of these shapes either succeed or say what stands in the way. A text counts
as the list of its characters and a mapping as the list of its keys where a list is expected.
-/

namespace Branchwork

/-- What stands in the way of using a value. -/
inductive ShapeProblem where
  | noMember (kind member : String)
  | notIterable (kind : String)
  | notUnpackable (kind : String)
  | tooMany
  | notEnough (count : Nat)
  | notSubscriptable (kind : String)
  | noFirst (kind : String)
  | missingKey (key : String)
  | unhashable (kind : String)
  | notName (kind : String)
  | notPair (kind : String)
  | notPath (kind : String)
  | notWord (place : Nat) (kind : String)
  | notJson (kind : String)
  | notJsonKey (kind : String)
  | nullByte
deriving DecidableEq, Repr

namespace ShapeProblem

/-- The word for the kind of a problem. -/
def kind : ShapeProblem → String
  | .noMember _ _ => "AttributeError"
  | .tooMany | .notEnough _ | .nullByte => "ValueError"
  | .noFirst _ => "IndexError"
  | .missingKey _ => "KeyError"
  | _ => "TypeError"

/-- A problem in words. -/
def message : ShapeProblem → String
  | .noMember kind member => s!"'{kind}' object has no attribute '{member}'"
  | .notIterable kind => s!"'{kind}' object is not iterable"
  | .notUnpackable kind => s!"cannot unpack non-iterable {kind} object"
  | .tooMany => "too many values to unpack (expected 2)"
  | .notEnough count => s!"not enough values to unpack (expected 2, got {count})"
  | .notSubscriptable kind => s!"'{kind}' object is not subscriptable"
  | .noFirst kind => s!"{kind} index out of range"
  | .missingKey key => key
  | .unhashable kind => s!"unhashable type: '{kind}'"
  | .notName kind => s!"expected string or bytes-like object, got '{kind}'"
  | .notPair kind => s!"toFile expects a (name, value) pair, got {kind}"
  | .notPath kind => s!"expected str, bytes or os.PathLike object, not {kind}"
  | .notWord place kind => s!"sequence item {place}: expected str instance, {kind} found"
  | .notJson kind => s!"the JSON object must be str, bytes or bytearray, not {kind}"
  | .notJsonKey kind => s!"keys must be str, int, float, bool or None, not {kind}"
  | .nullByte => "embedded null byte"

end ShapeProblem

namespace Value

/-- The entries of a mapping. -/
def entries : Value → Except ShapeProblem Mapping
  | .map entries => .ok entries
  | v => .error (.noMember v.qualifiedKind "items")

/-- The members of a value that holds members. -/
def members? : Value → Option (List Value)
  | .list items | .tuple items | .set items => some items
  | .text s => some (s.toList.map fun c => .text (String.ofList [c]))
  | .map entries => some (entries.map (·.1))
  | .bytes b => some (b.map fun b => .int b.toNat)
  | _ => none

/-- The members of a value. -/
def members (v : Value) : Except ShapeProblem (List Value) :=
  v.members?.elim (.error (.notIterable v.qualifiedKind)) .ok

/-- The two members of a pair. -/
def pair (v : Value) : Except ShapeProblem (Value × Value) :=
  match v.members? with
  | none => .error (.notUnpackable v.qualifiedKind)
  | some [left, right] => .ok (left, right)
  | some members =>
    if members.length < 2 then .error (.notEnough members.length) else .error .tooMany

/-- The first member of a value: of a mapping, what lies under zero. -/
def first (v : Value) : Except ShapeProblem Value :=
  match v with
  | .list [] => .error (.noFirst "list")
  | .tuple [] => .error (.noFirst "tuple")
  | .list (item :: _) | .tuple (item :: _) => .ok item
  | .text s =>
    match s.toList with
    | c :: _ => .ok (.text (String.ofList [c]))
    | [] => .error (.noFirst "string")
  | .map entries => (Mapping.get? (.int 0) entries).elim (.error (.missingKey "0")) .ok
  | v => .error (.notSubscriptable v.qualifiedKind)

/-- A value as a key. -/
def key (v : Value) : Except ShapeProblem Value :=
  if v.isKey then .ok v else .error (.unhashable v.badKeyKind)

end Value

end Branchwork
