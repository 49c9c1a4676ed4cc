import TaskBoard.Instant.Basic
import TaskBoard.Text.Decimal

/-!
# The text of an instant

RFC 3339 in UTC, as in `2025-01-01T00:00:00.250Z`: no fraction, or the fewest of 3, 6 and 9
digits that are exact; a year outside 0 to 9999 has a sign; a leap second is second 60.
-/

namespace TaskBoard.Instant

open Text

/-- A year: four digits, and outside 0 to 9999 a sign before at least four. -/
def yearText (y : Int) : List Char :=
  if y < 0 then '-' :: padded 4 y.natAbs
  else if y ≤ 9999 then padded 4 y.natAbs
  else '+' :: padded 4 y.natAbs

/-- A fraction of a second, with the point, in the fewest of 0, 3, 6 and 9 digits. -/
def fractionText (nanos : Nat) : List Char :=
  if nanos = 0 then []
  else if nanos % 1000000 = 0 then '.' :: padded 3 (nanos / 1000000)
  else if nanos % 1000 = 0 then '.' :: padded 6 (nanos / 1000)
  else '.' :: padded 9 nanos

/-- The date of an instant. -/
def date (t : Instant) : Date := Date.ofDayNumber (t.seconds / 86400)

/-- The second of the day of an instant, below 86400. -/
def secondOfDay (t : Instant) : Nat := (t.seconds % 86400).toNat

/-- The characters of an instant's text. -/
def print (t : Instant) : List Char :=
  let d := t.date
  let s := t.secondOfDay
  let leap := nanosPerSecond ≤ t.nanos
  yearText d.year ++ '-' :: padded 2 d.month ++ '-' :: padded 2 d.day
    ++ 'T' :: padded 2 (s / 3600) ++ ':' :: padded 2 (s / 60 % 60)
    ++ ':' :: padded 2 (if leap then s % 60 + 1 else s % 60)
    ++ fractionText (if leap then t.nanos - nanosPerSecond else t.nanos) ++ ['Z']

/-- The text of an instant. -/
def text (t : Instant) : String := String.ofList t.print

instance : Repr Instant := ⟨fun t _ => t.text⟩

end TaskBoard.Instant
