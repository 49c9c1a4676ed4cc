import TaskBoard.Decimal.Shortest
import TaskBoard.Text.Decimal

/-!
# The value of a JSON number

A number without fraction and exponent is an integer if it fits 64 bits, unsigned or with a minus
sign. Every other number is a double: up to 64 bits of its digits, times or divided by a power of
ten. `-0` is a double, and a number too large for a double has no value.
-/

namespace TaskBoard.Json

/-- What the spelling of a number stands for. -/
inductive Number where
  /-- An integer from 0 to 2⁶⁴ − 1. -/
  | natural (n : Nat)
  /-- The integer −n, for n from 1 to 2⁶³. -/
  | negative (n : Nat)
  | double (f : Float)
  | tooLarge

namespace Number

open Text

/-- The largest number of 64 bits. -/
def maxWord : Nat := 18446744073709551615

/-- Digits gathered into a number of 64 bits. -/
structure Gathered where
  significand : Nat
  /-- The power of ten that the significand is to be multiplied by. -/
  exponent : Int
  /-- Whether no digit has been left out. -/
  exact : Bool := true

/-- One more digit before the point. After the first that does not fit, digits only count. -/
def Gathered.addWhole (g : Gathered) (d : Nat) : Gathered :=
  if g.exact && g.significand * 10 + d ≤ maxWord then
    { g with significand := g.significand * 10 + d }
  else { g with exponent := g.exponent + 1, exact := false }

/-- One more digit after the point. After the first that does not fit, digits are dropped. -/
def Gathered.addPart (g : Gathered) (d : Nat) : Gathered :=
  if g.exact && g.significand * 10 + d ≤ maxWord then
    { g with significand := g.significand * 10 + d, exponent := g.exponent - 1 }
  else { g with exact := false }

/-- Ten to the power `e` as a double, for `e` up to 308. -/
def powerOfTen (e : Nat) : Float := Float.ofScientific 1 false e

/-- A double divided by ten to the power `e`, in steps that a double can hold. -/
def divideByPower (f : Float) (e : Nat) : Float :=
  if e ≤ 308 then f / powerOfTen e
  else if f == 0.0 then f
  else divideByPower (f / powerOfTen 308) (e - 308)
termination_by e

/-- A significand times a power of ten. -/
def ofParts (negative : Bool) (significand : Nat) (exponent : Int) : Number :=
  let f := (UInt64.ofNat significand).toFloat
  let signed (f : Float) : Number := .double (if negative then -f else f)
  match exponent with
  | .negSucc e => signed (divideByPower f (e + 1))
  | .ofNat e =>
    if e ≤ 308 then
      let g := f * powerOfTen e
      if g.isInf then .tooLarge else signed g
    else if significand = 0 then signed f
    else .tooLarge

/-- The largest exponent that is computed with. -/
def maxExponent : Nat := 2147483647

/-- A number with an exponent of its own. -/
def withExponent (negative : Bool) (g : Gathered) (down : Bool) (e : Nat) : Number :=
  if maxExponent < e then
    if g.significand ≠ 0 ∧ !down then .tooLarge else .double (if negative then -0.0 else 0.0)
  else
    let sum := if down then g.exponent - e else g.exponent + e
    ofParts negative g.significand (max (-2147483648) (min 2147483647 sum))

/-- The number of a spelling, without its sign. -/
def ofUnsigned (negative : Bool) (cs : List Char) : Number :=
  let value (c : Char) := (digitValue? c).getD 0
  let whole := cs.takeWhile isDigit
  let rest := cs.dropWhile isDigit
  let g := whole.foldl (fun g c => g.addWhole (value c)) { significand := 0, exponent := 0 }
  match rest with
  | [] =>
    if !g.exact then ofParts negative g.significand g.exponent
    else if !negative then .natural g.significand
    else if 1 ≤ g.significand ∧ g.significand ≤ 9223372036854775808 then .negative g.significand
    else .double (-(UInt64.ofNat g.significand).toFloat)
  | '.' :: rest =>
    let part := rest.takeWhile isDigit
    let g := part.foldl (fun g c => g.addPart (value c)) { g with exact := true }
    exponentPart g (rest.dropWhile isDigit)
  | rest => exponentPart g rest
where
  /-- What an exponent, if there is one, makes of the digits before it. -/
  exponentPart (g : Gathered) : List Char → Number
    | [] => ofParts negative g.significand g.exponent
    | _ :: '-' :: cs => withExponent negative g true ((readNat? cs).getD 0)
    | _ :: '+' :: cs => withExponent negative g false ((readNat? cs).getD 0)
    | _ :: cs => withExponent negative g false ((readNat? cs).getD 0)

/-- The number of a spelling. -/
def ofSpelling : List Char → Number
  | '-' :: cs => ofUnsigned true cs
  | cs => ofUnsigned false cs

/-- Doubles in messages: positional from 10⁻⁵ up to below 10¹⁶, always with a point or exponent. -/
def layout : Decimal.Layout where
  positional e := -5 ≤ e && e ≤ 15
  pointZero := true
  plus := true

end Number

end TaskBoard.Json
