/-!
# Dates and moments

A date of the Gregorian calendar, and a moment: a date with a time of day and, if it is known, the
offset of the time zone. Both are checked when they are made.
-/

namespace Branchwork

/-- A day of the calendar. -/
structure Date where
  year : Nat
  month : Nat
  day : Nat
deriving DecidableEq, Repr, Inhabited

/-- A date with a time of day; `offset` is the distance to universal time in minutes. -/
structure Moment where
  date : Date
  hour : Nat
  minute : Nat
  second : Nat
  microsecond : Nat
  offset : Option Int
deriving DecidableEq, Repr, Inhabited

namespace Date

/-- Whether a year has a 29th of February. -/
def isLeap (year : Nat) : Bool := year % 4 = 0 && (year % 100 ≠ 0 || year % 400 = 0)

/-- The number of days of a month. -/
def daysInMonth (year month : Nat) : Nat :=
  if month = 2 then (if isLeap year then 29 else 28)
  else if month = 4 || month = 6 || month = 9 || month = 11 then 30 else 31

/-- A number written with at least `width` digits. -/
def padded (width n : Nat) : String :=
  let written := toString n
  String.ofList (List.replicate (width - written.length) '0') ++ written

/-- The text `YYYY-MM-DD`. -/
def text (d : Date) : String := s!"{padded 4 d.year}-{padded 2 d.month}-{padded 2 d.day}"

/-- The days from the first day of year zero to a date. -/
def dayNumber (d : Date) : Int :=
  let y : Int := if d.month ≤ 2 then (d.year : Int) - 1 else d.year
  let m : Int := if d.month ≤ 2 then d.month + 9 else (d.month : Int) - 3
  365 * y + y / 4 - y / 100 + y / 400 + (153 * m + 2) / 5 + d.day

/-- A date, or what is wrong with its numbers. -/
def make (year month day : Nat) : Except String Date :=
  if year = 0 then .error s!"year {year} is out of range"
  else if month < 1 || 12 < month then .error "month must be in 1..12"
  else if day < 1 || daysInMonth year month < day then .error "day is out of range for month"
  else .ok ⟨year, month, day⟩

end Date

namespace Moment

/-- A distance in minutes written `+HH:MM`. -/
def offsetText (minutes : Int) : String :=
  let n := minutes.natAbs
  let sign := if minutes < 0 then "-" else "+"
  s!"{sign}{Date.padded 2 (n / 60)}:{Date.padded 2 (n % 60)}"

/-- A distance in minutes as days and seconds, of which only the days may be below zero. -/
def spanText (minutes : Int) : String :=
  let seconds := minutes * 60
  let days := Int.fdiv seconds 86400
  let rest := Int.fmod seconds 86400
  let parts := (if days = 0 then [] else [s!"days={days}"]) ++
    (if rest = 0 then [] else [s!"seconds={rest}"])
  "datetime.timedelta(" ++ ", ".intercalate parts ++ ")"

/-- The time of day, with six digits after the point when there is a fraction of a second. -/
def timeText (t : Moment) : String :=
  let clock := s!"{Date.padded 2 t.hour}:{Date.padded 2 t.minute}:{Date.padded 2 t.second}"
  if t.microsecond = 0 then clock else s!"{clock}.{Date.padded 6 t.microsecond}"

/-- Date and time of day with a separator between them. -/
def text (separator : String) (t : Moment) : String :=
  t.date.text ++ separator ++ t.timeText ++ (t.offset.map offsetText).getD ""

/-- A moment, or what is wrong with its numbers. -/
def make (year month day hour minute second microsecond : Nat) (offset : Option Int) :
    Except String Moment :=
  match Date.make year month day with
  | .error message => .error message
  | .ok date =>
    if 23 < hour then .error "hour must be in 0..23"
    else if 59 < minute then .error "minute must be in 0..59"
    else if 59 < second then .error "second must be in 0..59"
    else .ok ⟨date, hour, minute, second, microsecond, offset⟩

/-- The microseconds from the first day of year zero, in universal time where it is known. -/
def instant (t : Moment) : Int :=
  (((t.date.dayNumber * 24 + t.hour) * 60 + t.minute - t.offset.getD 0) * 60 + t.second) * 1000000
    + t.microsecond

/-- Equality of moments: of two with an offset, of the instants that they stand for. -/
def equals (t u : Moment) : Bool := t.offset.isSome = u.offset.isSome && t.instant = u.instant

end Moment

end Branchwork
