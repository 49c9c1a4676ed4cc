import TaskBoard.Text.Decimal
import TaskBoard.Text.Utf8

/-!
# Percent-encoding and form-encoding

A byte is written as `%` and two hexadecimal digits. `percentEncode` leaves the ASCII characters
that it is told to keep; `percentDecode` takes any text and leaves a `%` alone that no two digits
follow. A form is a list of pairs, joined by `=` and `&`, in which a space is a plus sign.
-/

namespace TaskBoard.Text

/-- An upper-case hexadecimal digit. -/
def hexUpper (d : Nat) : Char := if d < 10 then digitChar d else Char.ofNat (55 + d)

/-- A byte as `%XX`. -/
def percentByte (b : UInt8) : List Char := ['%', hexUpper (b.toNat / 16), hexUpper (b.toNat % 16)]

/-- A character, percent-encoded unless it is ASCII and kept. -/
def percentChar (keep : Char → Bool) (c : Char) : List Char :=
  if c.toNat < 0x80 && keep c then [c] else (String.utf8EncodeChar c).flatMap percentByte

/-- A text, percent-encoded but for the characters kept. -/
def percentEncode (keep : Char → Bool) (cs : List Char) : List Char := cs.flatMap (percentChar keep)

/-- The value of the hexadecimal digit that a byte is, if it is one. -/
def hexByte? (b : UInt8) : Option UInt8 :=
  (hexValue? (Char.ofNat b.toNat)).map UInt8.ofNat

/-- The bytes with `%XX` resolved. -/
def percentDecode : List UInt8 → List UInt8
  | 0x25 :: a :: b :: rest =>
    match hexByte? a, hexByte? b with
    | some x, some y => (x * 16 + y) :: percentDecode rest
    | _, _ => 0x25 :: percentDecode (a :: b :: rest)
  | b :: rest => b :: percentDecode rest
  | [] => []

/-- Whether a text is well-formed once its bytes are decoded. -/
def isEncodedText (cs : List Char) : Bool :=
  (strictText (utf8Decode (percentDecode (utf8Encode cs)))).isSome

/-- The characters that a form keeps. -/
def keptInForm (c : Char) : Bool :=
  isDigit c || ('a' ≤ c && c ≤ 'z') || ('A' ≤ c && c ≤ 'Z')
    || c == '*' || c == '-' || c == '.' || c == '_'

/-- A name or value as it stands in a form. -/
def formEncode (cs : List Char) : List Char :=
  cs.flatMap fun c => if c = ' ' then ['+'] else percentChar keptInForm c

/-- A pair as it stands in a form. -/
def formPair (name value : List Char) : List Char := formEncode name ++ '=' :: formEncode value

/-- The bytes of a name or value of a form, as text; bytes that are no character become U+FFFD. -/
def formDecode (bs : List UInt8) : List Char :=
  lossyText (utf8Decode (percentDecode (bs.map fun b => if b = 0x2B then 0x20 else b)))

/-- The stretches of a list between the places where `p` holds. -/
def splitAtAll {α : Type} (p : α → Bool) : List α → List (List α)
  | [] => [[]]
  | a :: as =>
    if p a then [] :: splitAtAll p as
    else
      match splitAtAll p as with
      | [] => [[a]]
      | part :: parts => (a :: part) :: parts

/-- The pairs of a form. Empty stretches are none; a stretch without `=` has an empty value. -/
def formPairs (bs : List UInt8) : List (List Char × List Char) :=
  ((splitAtAll (· == 0x26) bs).filter fun part => !part.isEmpty).map fun part =>
    (formDecode (part.takeWhile (· != 0x3D)), formDecode ((part.dropWhile (· != 0x3D)).drop 1))

end TaskBoard.Text
