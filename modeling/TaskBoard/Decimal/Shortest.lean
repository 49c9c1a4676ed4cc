import TaskBoard.Text.Decimal

/-!
# The fewest digits that read back

`shortest m q narrow` finds the shortest decimal that rounds to the double `m · 2^q`: of the
decimals with the fewest digits inside the interval of reals that round to it, the nearest. All
arithmetic is exact.
-/

namespace TaskBoard.Decimal

/-- A decimal number `d₁.d₂d₃… · 10^exponent`, given by its digits read as one number. -/
structure Scientific where
  digits : Nat
  exponent : Int
deriving DecidableEq, Repr

/-- A positive rational and the rationals that round to it, over one denominator. -/
structure Interval where
  low : Nat
  value : Nat
  high : Nat
  denominator : Nat
  /-- Whether the two ends round to the value. -/
  closed : Bool
deriving DecidableEq, Repr

namespace Interval

/-- The interval of `m · 2^q`. It is `narrow` below if the next smaller double is nearer. -/
def ofBinary (m : Nat) (q : Int) (narrow : Bool) : Interval :=
  let up := Nat.pow 2 (q - 2).toNat
  { low := (4 * m - if narrow then 1 else 2) * up
    value := 4 * m * up
    high := (4 * m + 2) * up
    denominator := Nat.pow 2 (2 - q).toNat
    closed := m % 2 == 0 }

/-- The exponent of the value's first decimal digit. -/
def exponent (i : Interval) : Int :=
  (Text.natDigits (i.value * Nat.pow 10 400 / i.denominator)).length - 401

/-- Whether `n / denominator` is inside. -/
def contains (i : Interval) (n : Nat) : Bool :=
  if i.closed then i.low ≤ n && n ≤ i.high else i.low < n && n < i.high

/-- The interval in units of `10^p`. -/
def scale (i : Interval) (p : Int) : Interval :=
  let up := Nat.pow 10 (-p).toNat
  { i with
    low := i.low * up
    value := i.value * up
    high := i.high * up
    denominator := i.denominator * Nat.pow 10 p.toNat }

/-- The whole number inside that is nearest to the value, of its two neighbours; on a tie the even
one. -/
def nearestWhole? (i : Interval) : Option Nat :=
  let below := i.value / i.denominator
  let above := below + 1
  let distBelow := i.value - below * i.denominator
  let distAbove := above * i.denominator - i.value
  match i.contains (below * i.denominator), i.contains (above * i.denominator) with
  | true, false => some below
  | false, true => some above
  | false, false => none
  | true, true =>
    if distBelow < distAbove || (distBelow == distAbove && below % 2 == 0) then some below
    else some above

/-- The first grid of `count`, `count + 1`, … digits with a hit. -/
def search (i : Interval) (x : Int) : (fuel count : Nat) → Scientific
  | 0, count => ⟨i.value * Nat.pow 10 (count - 1 - x).toNat / i.denominator, x⟩
  | fuel + 1, count =>
    match (i.scale (x - count + 1)).nearestWhole? with
    | some n => if n = Nat.pow 10 count then ⟨1, x + 1⟩ else ⟨n, x⟩
    | none => i.search x fuel (count + 1)

end Interval

/-- The shortest decimal that rounds to `m · 2^q`; 17 digits always suffice for a double. -/
def shortest (m : Nat) (q : Int) (narrow : Bool) : Scientific :=
  let i := Interval.ofBinary m q narrow
  i.search i.exponent 17 1

/-- The kinds of doubles. -/
inductive Magnitude where
  | zero
  | finite (d : Scientific)
  | infinite
  | notANumber
deriving DecidableEq, Repr

/-- Sign and shortest decimal of a double given by its bits. -/
def ofBits (bits : Nat) : Bool × Magnitude :=
  let negative := bits / Nat.pow 2 63 % 2 == 1
  let e : Nat := bits / Nat.pow 2 52 % 2048
  let f : Nat := bits % Nat.pow 2 52
  if e = 2047 then (negative, if f = 0 then .infinite else .notANumber)
  else if e = 0 then
    (negative, if f = 0 then .zero else .finite (shortest f (-1074) false))
  else (negative, .finite (shortest (Nat.pow 2 52 + f) ((e : Int) - 1075) (f == 0 && e != 1)))

/-- How a double is laid out as text. -/
structure Layout where
  /-- The exponents that are written positionally; the others get an exponent mark. -/
  positional : Int → Bool
  /-- Whether a whole number written positionally ends in `.0`. -/
  pointZero : Bool
  /-- Whether a positive exponent has a plus sign. -/
  plus : Bool

namespace Layout

/-- A finite number above zero. -/
def finite (l : Layout) (d : Scientific) : List Char :=
  let ds := Text.natDigits d.digits
  if l.positional d.exponent then
    match d.exponent with
    | .ofNat e =>
      let whole := ds.take (e + 1)
      let whole := whole ++ List.replicate (e + 1 - whole.length) '0'
      match ds.drop (e + 1) with
      | [] => if l.pointZero then whole ++ ['.', '0'] else whole
      | part => whole ++ '.' :: part
    | .negSucc e => '0' :: '.' :: List.replicate e '0' ++ ds
  else
    let mark := 'e' :: (if l.plus && d.exponent ≥ 0 then ['+'] else []) ++ Text.intDigits d.exponent
    match ds with
    | [] => mark
    | [c] => c :: mark
    | c :: cs => c :: '.' :: cs ++ mark

/-- The text of a double. -/
def text (l : Layout) (f : Float) : List Char :=
  let (negative, magnitude) := ofBits f.toBits.toNat
  let body := match magnitude with
    | .zero => if l.pointZero then ['0', '.', '0'] else ['0']
    | .finite d => l.finite d
    | .infinite => ['i', 'n', 'f']
    | .notANumber => ['N', 'a', 'N']
  if negative then '-' :: body else body

end Layout

end TaskBoard.Decimal
