/-!
# UTF-8

Encoding text as bytes, and decoding any bytes into characters and strays. A stray stands for a
longest run of bytes that begins a character but does not complete it, or for one byte that can
begin none, so that bytes are well-formed exactly when they decode without strays.
-/

namespace TaskBoard.Text

/-- What bytes decode to, one place at a time. -/
inductive Symbol where
  | char (c : Char)
  /-- Bytes that are no character. -/
  | stray
deriving DecidableEq, Repr

/-- The bytes of a text. -/
def utf8Encode (cs : List Char) : List UInt8 := cs.flatMap String.utf8EncodeChar

namespace Utf8

/-- A character that has begun: its bits so far, how many bytes are still to come, and the bounds
of the next one. -/
structure Pending where
  bits : Nat
  left : Nat
  low : UInt8
  high : UInt8
deriving DecidableEq, Repr

/-- The decoder between two bytes: the symbols so far, last first, and the character begun. -/
structure State where
  out : List Symbol := []
  pending : Option Pending := none
deriving DecidableEq, Repr

/-- What a first byte begins. The bounds of the second byte keep out overlong forms, surrogates
and numbers past the last character. -/
def lead (b : UInt8) : Option Pending :=
  if 0xC2 ≤ b ∧ b ≤ 0xDF then some ⟨b.toNat - 0xC0, 1, 0x80, 0xBF⟩
  else if b = 0xE0 then some ⟨0, 2, 0xA0, 0xBF⟩
  else if b = 0xED then some ⟨0xD, 2, 0x80, 0x9F⟩
  else if 0xE1 ≤ b ∧ b ≤ 0xEF then some ⟨b.toNat - 0xE0, 2, 0x80, 0xBF⟩
  else if b = 0xF0 then some ⟨0, 3, 0x90, 0xBF⟩
  else if 0xF1 ≤ b ∧ b ≤ 0xF3 then some ⟨b.toNat - 0xF0, 3, 0x80, 0xBF⟩
  else if b = 0xF4 then some ⟨4, 3, 0x80, 0x8F⟩
  else none

/-- The decoder after a byte that begins a character or stands alone. -/
def start (out : List Symbol) (b : UInt8) : State :=
  if b < 0x80 then { out := .char (Char.ofNat b.toNat) :: out }
  else
    match lead b with
    | some p => { out, pending := some p }
    | none => { out := .stray :: out }

/-- The decoder after one more byte. -/
def step (s : State) (b : UInt8) : State :=
  match s.pending with
  | none => start s.out b
  | some p =>
    if p.low ≤ b ∧ b ≤ p.high then
      let bits := p.bits * 64 + (b.toNat - 0x80)
      if p.left = 1 then { out := .char (Char.ofNat bits) :: s.out }
      else { out := s.out, pending := some ⟨bits, p.left - 1, 0x80, 0xBF⟩ }
    else start (.stray :: s.out) b

/-- The symbols when the bytes end here. -/
def finish (s : State) : List Symbol :=
  (match s.pending with
  | none => s.out
  | some _ => .stray :: s.out).reverse

end Utf8

/-- The symbols that bytes stand for. -/
def utf8Decode (bs : List UInt8) : List Symbol := Utf8.finish (bs.foldl Utf8.step {})

/-- The text of symbols, if there is no stray among them. -/
def strictText : List Symbol → Option (List Char)
  | [] => some []
  | .char c :: ss => (strictText ss).map (c :: ·)
  | .stray :: _ => none

/-- The text of symbols, with U+FFFD for each stray. -/
def lossyText (ss : List Symbol) : List Char :=
  ss.map fun
    | .char c => c
    | .stray => '\ufffd'

end TaskBoard.Text
