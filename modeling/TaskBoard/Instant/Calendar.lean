/-!
# The Gregorian calendar

Days are counted from 1970-01-01, over all integers and with the calendar extended backwards
(year 0 is a leap year). `dayNumber` counts, `Date.ofDayNumber` reads a count back. Both start
the year in March, so that a leap day is the last of its year.
-/

namespace TaskBoard

/-- A year, month and day. -/
structure Date where
  year : Int
  month : Nat
  day : Nat
deriving DecidableEq, Repr

/-- Every fourth year is a leap year, except the hundredth, except the four-hundredth. -/
def isLeapYear (y : Int) : Bool := y % 4 == 0 && (y % 100 != 0 || y % 400 == 0)

/-- The number of days in a month. -/
def daysInMonth (y : Int) (m : Nat) : Nat :=
  match m with
  | 2 => if isLeapYear y then 29 else 28
  | 4 | 6 | 9 | 11 => 30
  | _ => 31

/-- Whether the calendar has the date. -/
def Date.isValid (d : Date) : Bool :=
  1 ≤ d.month && d.month ≤ 12 && 1 ≤ d.day && d.day ≤ daysInMonth d.year d.month

/-- Days from 1970-01-01 to the date. -/
def Date.dayNumber (d : Date) : Int :=
  let y := if d.month ≤ 2 then d.year - 1 else d.year
  let m : Int := ((d.month + 9) % 12 : Nat)
  365 * y + y / 4 - y / 100 + y / 400 + (153 * m + 2) / 5 + d.day - 719469

/-- The date a number of days after 1970-01-01. -/
def Date.ofDayNumber (n : Int) : Date :=
  let n := n + 719468
  let era := n / 146097
  let dayOfEra := n % 146097
  let yearOfEra :=
    (dayOfEra - dayOfEra / 1460 + dayOfEra / 36524 - dayOfEra / 146096) / 365
  let dayOfYear := dayOfEra - (365 * yearOfEra + yearOfEra / 4 - yearOfEra / 100)
  let m := (5 * dayOfYear + 2) / 153
  let month := if m < 10 then m + 3 else m - 9
  let year := yearOfEra + 400 * era
  { year := if month ≤ 2 then year + 1 else year
    month := month.toNat
    day := (dayOfYear - (153 * m + 2) / 5 + 1).toNat }

end TaskBoard
