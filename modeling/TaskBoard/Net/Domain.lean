import TaskBoard.Net.Punycode
import TaskBoard.Text.Hidden
import TaskBoard.Text.Utf8

/-!
# Domain names

The ASCII form of a domain name. Letters fold to lower case, full-width forms to ASCII and the
other full stops to the point; characters to be ignored are left out. A label with other characters
than ASCII is written in Punycode after `xn--`.
-/

namespace TaskBoard.Net

open Text

/-- The lower-case letter of a Latin, Greek or Cyrillic letter; other characters stay. -/
def foldLetter (c : Char) : Char :=
  let n := c.toNat
  let letter (m : Nat) : Char := Char.ofNat m
  if n < 0x80 then lowerAscii c
  else if 0xFF01 ≤ n ∧ n ≤ 0xFF5E then lowerAscii (letter (n - 0xFEE0))
  else if 0xC0 ≤ n ∧ n ≤ 0xDE ∧ n ≠ 0xD7 then letter (n + 32)
  else if n = 0x178 then letter 0xFF
  else if n = 0x17F then 's'
  else if (0x100 ≤ n ∧ n ≤ 0x12F ∨ 0x132 ≤ n ∧ n ≤ 0x137 ∨ 0x14A ≤ n ∧ n ≤ 0x177
      ∨ 0x1E00 ≤ n ∧ n ≤ 0x1E94 ∨ 0x1EA0 ≤ n ∧ n ≤ 0x1EFE) ∧ n % 2 = 0 then
    letter (n + 1)
  else if (0x139 ≤ n ∧ n ≤ 0x148 ∨ 0x179 ≤ n ∧ n ≤ 0x17E) ∧ n % 2 = 1 then letter (n + 1)
  else if 0x391 ≤ n ∧ n ≤ 0x3AB ∧ n ≠ 0x3A2 then letter (n + 32)
  else if n = 0x386 then letter 0x3AC
  else if 0x388 ≤ n ∧ n ≤ 0x38A then letter (n + 37)
  else if n = 0x38C then letter 0x3CC
  else if n = 0x38E ∨ n = 0x38F then letter (n + 63)
  else if 0x410 ≤ n ∧ n ≤ 0x42F then letter (n + 32)
  else if 0x400 ≤ n ∧ n ≤ 0x40F then letter (n + 80)
  else c

/-- Whether a character counts as none in a domain name. -/
def isIgnored (c : Char) : Bool :=
  let n := c.toNat
  n == 0xAD || n == 0x200B || n == 0x2060 || n == 0xFEFF || (0xFE00 ≤ n && n ≤ 0xFE0F)

/-- Whether a character is a full stop of any script. -/
def isFullStop (c : Char) : Bool :=
  let n := c.toNat
  n == 0x2E || n == 0x3002 || n == 0xFF0E || n == 0xFF61

/-- Whether a domain name may hold the character in its ASCII form. -/
def isDomainChar (c : Char) : Bool :=
  0x20 < c.toNat && c.toNat < 0x7F && !("%#/:<>?@[\\]^|".toList.contains c)

/-- The ASCII form of a label. -/
def labelToAscii (label : List Char) : Option (List Char) :=
  if label.all fun c => c.toNat < 0x80 then
    if label.take 4 == "xn--".toList then
      match Punycode.decode? (label.drop 4) with
      | some inner =>
        if inner.isEmpty || inner.all fun c => c.toNat < 0x80 then none
        else if inner.any isHidden || inner.map foldLetter != inner then none
        else some label
      | none => none
    else if label.all isDomainChar then some label
    else none
  else if label.any fun c => (c.toNat < 0x80 && !isDomainChar c) || isHidden c then none
  else some ("xn--".toList ++ Punycode.encode label)

/-- Labels with points between them. -/
def joinLabels : List (List Char) → List Char
  | [] => []
  | [label] => label
  | label :: labels => label ++ '.' :: joinLabels labels

/-- The labels of a name. -/
def splitLabels : List Char → List (List Char)
  | [] => [[]]
  | c :: cs =>
    if c = '.' then [] :: splitLabels cs
    else
      match splitLabels cs with
      | [] => [[c]]
      | label :: labels => (c :: label) :: labels

/-- The ASCII form of a domain name given by its bytes. -/
def domainToAscii (bytes : List UInt8) : Option (List Char) := do
  let cs ← strictText (utf8Decode bytes)
  let cs := (cs.filter fun c => !isIgnored c).map fun c =>
    if isFullStop c then '.' else foldLetter c
  let labels ← (splitLabels cs).mapM labelToAscii
  return joinLabels labels

end TaskBoard.Net
