import Branchwork.Number.Decimal
import Branchwork.Number.DigitLimit
import Branchwork.Text.Quoted
import Branchwork.Value.Basic

/-!
# Values as text

Two texts of a value: `Value.display`, in which values of different kinds look different (texts are
quoted), and `Value.plain`, in which a text, a path, a date and a moment stand for themselves. A
value that holds an integer beyond the limit on digits (`Value.isOverlong`) should not be shown.
-/

namespace Branchwork

/-- The text of a moment's time zone. -/
def Moment.displayZone (minutes : Int) : String :=
  if minutes = 0 then "datetime.timezone.utc" else s!"datetime.timezone({Moment.spanText minutes})"

/-- A moment as the numbers that make it; a time that ends in zero seconds is cut there. -/
def Moment.display (t : Moment) : String :=
  let numbers := [t.date.year, t.date.month, t.date.day, t.hour, t.minute] ++
    (if t.second = 0 && t.microsecond = 0 then [] else [t.second]) ++
    (if t.microsecond = 0 then [] else [t.microsecond])
  let zone := (t.offset.map fun minutes => s!", tzinfo={Moment.displayZone minutes}").getD ""
  let written := ", ".intercalate (numbers.map toString)
  s!"datetime.datetime({written}{zone})"

/-- A date as the numbers that make it. -/
def Date.display (d : Date) : String := s!"datetime.date({d.year}, {d.month}, {d.day})"

namespace Value

mutual

/-- Whether a value holds an integer with too many digits to be written. -/
def isOverlong : Value → Bool
  | .int i => DigitLimit.exceeds i
  | .list items | .tuple items | .set items => anyOverlong items
  | .map entries => anyEntryOverlong entries
  | _ => false

/-- Whether one of several values is overlong. -/
def anyOverlong : List Value → Bool
  | [] => false
  | v :: rest => v.isOverlong || anyOverlong rest

/-- Whether a key or a value of a mapping is overlong. -/
def anyEntryOverlong : List (Value × Value) → Bool
  | [] => false
  | (k, v) :: rest => k.isOverlong || v.isOverlong || anyEntryOverlong rest

end

/-- A list of texts between two brackets, with commas. -/
def bracketed (opening closing : String) (items : List String) : String :=
  opening ++ ", ".intercalate items ++ closing

mutual

/-- The text in which values of different kinds look different. -/
def display : Value → String
  | .null => "None"
  | .bool b => if b then "True" else "False"
  | .int i => toString i
  | .float x => x.text
  | .text s => quoteText s
  | .list items => bracketed "[" "]" (displayItems items)
  | .tuple [item] => "(" ++ item.display ++ ",)"
  | .tuple items => bracketed "(" ")" (displayItems items)
  | .map entries => bracketed "\x7b" "\x7d" (displayEntries entries)
  | .path p => s!"PosixPath({quoteText p.text})"
  | .date d => d.display
  | .moment t => t.display
  | .bytes b => String.ofList (Text.quotedBytes b)
  | .set [] => "set()"
  | .set items => bracketed "\x7b" "\x7d" (displayItems items)

/-- The texts of a list of values. -/
def displayItems : List Value → List String
  | [] => []
  | v :: rest => v.display :: displayItems rest

/-- The texts of the entries of a mapping. -/
def displayEntries : List (Value × Value) → List String
  | [] => []
  | (k, v) :: rest => (k.display ++ ": " ++ v.display) :: displayEntries rest

end

/-- The text that a value stands for. -/
def plain : Value → String
  | .text s => s
  | .path p => p.text
  | .date d => d.text
  | .moment t => t.text " "
  | v => v.display

/-- The text that a value stands for, unless it is overlong. -/
def plain? (v : Value) : Option String := if v.isOverlong then none else some v.plain

mutual

/-- The text of a value inside a rendered template: null is empty, booleans are lower case, and
collections are their members with commas, a mapping's members behind their keys. -/
def rendered : Value → String
  | .null => ""
  | .bool b => if b then "true" else "false"
  | .list items | .tuple items => ", ".intercalate (renderedItems items)
  | .map entries => ", ".intercalate (renderedEntries entries)
  | v => v.plain

/-- The rendered texts of a list of values. -/
def renderedItems : List Value → List String
  | [] => []
  | v :: rest => v.rendered :: renderedItems rest

/-- The rendered texts of the entries of a mapping. -/
def renderedEntries : List (Value × Value) → List String
  | [] => []
  | (k, v) :: rest => (k.plain ++ ": " ++ v.rendered) :: renderedEntries rest

end

end Value

end Branchwork
