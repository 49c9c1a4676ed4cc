/-!
# ASCII letters

Case without regard to any script but ASCII, as the names of protocols use it.
-/

namespace TaskBoard.Text

/-- An ASCII letter in lower case; other characters stay. -/
def lowerAscii (c : Char) : Char :=
  if 'A' ≤ c ∧ c ≤ 'Z' then Char.ofNat (c.toNat + 32) else c

/-- A text with its ASCII letters in lower case. -/
def lowered (s : String) : String := String.ofList (s.toList.map lowerAscii)

/-- Whether the character is an ASCII letter. -/
def isAsciiLetter (c : Char) : Bool := ('a' ≤ c && c ≤ 'z') || ('A' ≤ c && c ≤ 'Z')

end TaskBoard.Text
