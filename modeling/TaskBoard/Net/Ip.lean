import TaskBoard.Text.Decimal

/-!
# Internet addresses

Four bytes of version 4 and eight groups of version 6, with their usual texts. In a text of
version 6 the longest run of two or more zero groups, the first of several, is left out.
-/

namespace TaskBoard.Net

open Text

/-- An address of version 4. -/
structure Ipv4 where
  number : Nat
deriving DecidableEq, Repr

/-- Four numbers with points between them. -/
def Ipv4.text (a : Ipv4) : List Char :=
  let n := a.number
  natDigits (n / 16777216 % 256) ++ '.' :: natDigits (n / 65536 % 256)
    ++ '.' :: natDigits (n / 256 % 256) ++ '.' :: natDigits (n % 256)

/-- An address of version 6: eight groups of 16 bits. -/
structure Ipv6 where
  groups : List Nat
deriving DecidableEq, Repr

namespace Ipv6

/-- The number of zeros a list begins with. -/
def zeroRun (gs : List Nat) : Nat := (gs.takeWhile (· = 0)).length

/-- Place and length of the longest run of zeros from `index` on, the first of equals. -/
def longestRun (index : Nat) : List Nat → Nat × Nat
  | [] => (index, 0)
  | g :: gs =>
    let here := zeroRun (g :: gs)
    let later := longestRun (index + 1) gs
    if later.2 ≤ here then (index, here) else later

/-- Groups with colons between them. -/
def groupsText : List Nat → List Char
  | [] => []
  | [g] => hexDigits g
  | g :: gs => hexDigits g ++ ':' :: groupsText gs

/-- The text of an address. -/
def text (a : Ipv6) : List Char :=
  let (start, run) := longestRun 0 a.groups
  if run < 2 then groupsText a.groups
  else groupsText (a.groups.take start) ++ "::".toList ++ groupsText (a.groups.drop (start + run))

end Ipv6

end TaskBoard.Net
