import TaskBoard.Text.Ascii

/-!
# Punycode

A label of any characters as ASCII letters, digits and hyphens. The ASCII characters stand first;
for each of the others, in order of code points, the distance to the one before is written in a
number system to base 36 whose thresholds follow the distances met so far.
-/

namespace TaskBoard.Net.Punycode

/-- The character of a digit below 36. -/
def digit (d : Nat) : Char := Char.ofNat (if d < 26 then 97 + d else 22 + d)

/-- The value of a digit. -/
def value? (c : Char) : Option Nat :=
  if 'a' ≤ c ∧ c ≤ 'z' then some (c.toNat - 97)
  else if 'A' ≤ c ∧ c ≤ 'Z' then some (c.toNat - 65)
  else if '0' ≤ c ∧ c ≤ '9' then some (c.toNat - 22)
  else none

/-- The threshold of the digit at place `k`. -/
def threshold (k bias : Nat) : Nat := max 1 (min 26 (k - bias))

/-- Divides a distance by 35 until it is small, counting 36 for each time. -/
def damp (delta : Nat) : Nat × Nat :=
  if 455 < delta then
    let (d, k) := damp (delta / 35)
    (d, k + 36)
  else (delta, 0)
termination_by delta

/-- The bias after a distance, `count` characters being placed. -/
def adapt (delta count : Nat) (first : Bool) : Nat :=
  let delta := if first then delta / 700 else delta / 2
  let (d, k) := damp (delta + delta / count)
  k + 36 * d / (d + 38)

/-- A distance in digits, from place `k` on. -/
def encodeNumber (bias k q : Nat) : List Char :=
  let t := threshold k bias
  if q < t then [digit q]
  else digit (t + (q - t) % (36 - t)) :: encodeNumber bias (k + 36) ((q - t) / (36 - t))
termination_by q
decreasing_by
  have h1 : 1 ≤ threshold k bias := Nat.le_max_left _ _
  exact Nat.lt_of_le_of_lt (Nat.div_le_self _ _) (by omega)

/-- Between two characters of the text. -/
structure Encoder where
  /-- The digits so far, last first. -/
  out : List Char
  delta : Nat
  bias : Nat
  placed : Nat

/-- Passes over `c` while the characters equal to `m` are being placed. -/
def Encoder.pass (basic : Nat) (m : Nat) (e : Encoder) (c : Char) : Encoder :=
  if c.toNat < m then { e with delta := e.delta + 1 }
  else if c.toNat = m then
    { out := (encodeNumber e.bias 36 e.delta).reverse ++ e.out
      delta := 0
      bias := adapt e.delta (e.placed + 1) (e.placed == basic)
      placed := e.placed + 1 }
  else e

/-- Places the characters of each code point, in increasing order, `n` being the next one. -/
def encodeFrom (cs : List Char) (basic n : Nat) : List Nat → Encoder → Encoder
  | [], e => e
  | m :: ms, e =>
    let e := { e with delta := e.delta + (m - n) * (e.placed + 1) }
    let e := cs.foldl (Encoder.pass basic m) e
    encodeFrom cs basic (m + 1) ms { e with delta := e.delta + 1 }

/-- The label in ASCII, without its mark. -/
def encode (cs : List Char) : List Char :=
  let ascii := cs.filter fun c => c.toNat < 0x80
  let others := ((cs.map Char.toNat).filter (0x80 ≤ ·)).mergeSort.eraseDups
  let e := encodeFrom cs ascii.length 0x80 others ⟨[], 0, 72, ascii.length⟩
  ascii ++ (if ascii.isEmpty then [] else ['-']) ++ e.out.reverse

/-- Reads a distance in digits. -/
def decodeNumber (bias : Nat) : (k weight i : Nat) → List Char → Option (Nat × List Char)
  | _, _, _, [] => none
  | k, w, i, c :: cs =>
    match value? c with
    | none => none
    | some d =>
      let i := i + d * w
      let t := threshold k bias
      if d < t then some (i, cs) else decodeNumber bias (k + 36) (w * (36 - t)) i cs

/-- Reads the distances, each of which puts one character in its place. -/
def decodeFrom : (fuel n i bias : Nat) → List Char → List Char → Option (List Char)
  | _, _, _, _, out, [] => some out
  | 0, _, _, _, _, _ => none
  | fuel + 1, n, i, bias, out, cs =>
    match decodeNumber bias 36 1 i cs with
    | none => none
    | some (j, cs) =>
      let size := out.length + 1
      let n := n + j / size
      let place := j % size
      if 0x10FFFF < n ∨ (0xD800 ≤ n ∧ n < 0xE000) then none
      else
        decodeFrom fuel n (place + 1) (adapt (j - i) size (i == 0))
          (out.take place ++ Char.ofNat n :: out.drop place) cs

/-- The label that an ASCII label without its mark stands for. -/
def decode? (cs : List Char) : Option (List Char) :=
  let tail := (cs.reverse.takeWhile (· != '-')).reverse
  let head := cs.take (cs.length - tail.length - 1)
  decodeFrom cs.length 0x80 0 72 head tail

end TaskBoard.Net.Punycode
