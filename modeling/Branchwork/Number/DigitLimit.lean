/-!
# The limit on digits

An integer with more decimal digits than the limit is neither read nor written.
-/

namespace Branchwork.DigitLimit

/-- The greatest count of decimal digits that an integer may have. -/
def greatest : Nat := 4300

/-- The message for an integer with too many digits. -/
def message (count : Nat) : String :=
  s!"Exceeds the limit ({greatest} digits) for integer string conversion: " ++
    s!"value has {count} digits; use sys.set_int_max_str_digits() to increase the limit"

/-- The least magnitude that has too many digits. -/
def bound : Nat := Nat.pow 10 greatest

/-- Whether an integer has too many digits to be written. -/
def exceeds (i : Int) : Bool := bound ≤ i.natAbs

/-- The message for an integer that has too many digits to be written. -/
def writeMessage : String :=
  s!"Exceeds the limit ({greatest} digits) for integer string conversion; " ++
    "use sys.set_int_max_str_digits() to increase the limit"

end Branchwork.DigitLimit
