import TaskBoard.Text.Decimal

/-!
# Durations in messages

A duration in the largest unit that it reaches, with as many decimals as are exact: `1.5s`,
`50ms`, `1.001ms`, `0ns`.
-/

namespace TaskBoard.Text

/-- A number and its fraction `part / 10^places`, without zeros at the end. -/
def decimalText (whole part places : Nat) : List Char :=
  let digits := ((padded places part).reverse.dropWhile (· = '0')).reverse
  natDigits whole ++ if digits.isEmpty then [] else '.' :: digits

/-- The text of a duration in nanoseconds. -/
def durationText (nanos : Nat) : String :=
  if 1000000000 ≤ nanos then
    String.ofList (decimalText (nanos / 1000000000) (nanos % 1000000000) 9) ++ "s"
  else if 1000000 ≤ nanos then
    String.ofList (decimalText (nanos / 1000000) (nanos % 1000000) 6) ++ "ms"
  else if 1000 ≤ nanos then
    String.ofList (decimalText (nanos / 1000) (nanos % 1000) 3) ++ "µs"
  else natText nanos ++ "ns"

end TaskBoard.Text
