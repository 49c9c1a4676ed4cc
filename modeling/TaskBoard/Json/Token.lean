import TaskBoard.Text.Decimal
import TaskBoard.Text.Utf8

/-!
# JSON tokens

`tokens` splits a text into the tokens of JSON. It runs a machine over the text, one character at
a time (`Lexer.step`), so that what precedes a place in the text acts on what follows only through
the machine's state. Where the text stops being JSON the last token is `Token.junk`; a reader
that needs no more than the tokens before it never notices.

A number keeps its spelling. A string keeps its characters, or nothing if it contains bytes that
are no character or half of a surrogate pair: such a string may be skipped but not read.
-/

namespace TaskBoard.Json

open Text

/-- A token of JSON. -/
inductive Token where
  | openObject
  | closeObject
  | openArray
  | closeArray
  | colon
  | comma
  | null
  | bool (b : Bool)
  | number (spelling : List Char)
  | string (chars : Option (List Char))
  /-- From here on the text is not JSON. -/
  | junk
deriving DecidableEq, Repr

namespace Lexer

/-- The places within a number, by what has been read last. -/
inductive NumberPlace where
  | minus
  | zero
  | integer
  | point
  | fraction
  | mark
  | sign
  | exponent
deriving DecidableEq, Repr

/-- The part of a string that has been read. -/
structure Quoted where
  /-- The characters, last first. -/
  chars : List Char := []
  /-- The first half of a surrogate pair, if that was the last thing read. -/
  high : Option Nat := none
  /-- Whether everything so far was a character. -/
  sound : Bool := true
deriving DecidableEq, Repr

/-- What the machine is in the middle of. -/
inductive Mode where
  | between
  /-- A word of which these letters are still to come. -/
  | word (rest : List Char) (token : Token)
  /-- A number with this spelling, last character first. -/
  | number (place : NumberPlace) (spelling : List Char)
  | string (q : Quoted)
  | escape (q : Quoted)
  /-- The digits of a `\u` escape, of which some are left to come. -/
  | unit (q : Quoted) (left : Nat) (value : Nat)
  | junk
deriving DecidableEq, Repr

/-- The machine: the tokens so far, last first, and what is being read. -/
structure State where
  out : List Token := []
  mode : Mode := .between
deriving DecidableEq, Repr

/-- White space of JSON. -/
def isSpace (c : Char) : Bool := c = ' ' || c = '\t' || c = '\n' || c = '\r'

/-- The machine after a character that begins a token or stands between two. -/
def start (out : List Token) (c : Char) : State :=
  if isSpace c then { out }
  else if isDigit c && c != '0' then { out, mode := .number .integer [c] }
  else
    match c with
    | '{' => { out := .openObject :: out }
    | '}' => { out := .closeObject :: out }
    | '[' => { out := .openArray :: out }
    | ']' => { out := .closeArray :: out }
    | ':' => { out := .colon :: out }
    | ',' => { out := .comma :: out }
    | '"' => { out, mode := .string {} }
    | '-' => { out, mode := .number .minus [c] }
    | '0' => { out, mode := .number .zero [c] }
    | 'n' => { out, mode := .word ['u', 'l', 'l'] .null }
    | 't' => { out, mode := .word ['r', 'u', 'e'] (.bool true) }
    | 'f' => { out, mode := .word ['a', 'l', 's', 'e'] (.bool false) }
    | _ => { out := .junk :: out, mode := .junk }

/-- What a character does to a number. -/
inductive NumberMove where
  | goes (place : NumberPlace)
  | ends
  | breaks

/-- The move of `c` after what was read last of a number. -/
def numberMove (place : NumberPlace) (c : Char) : NumberMove :=
  let digit := isDigit c
  let isMark := c = 'e' || c = 'E'
  match place with
  | .minus => if c = '0' then .goes .zero else if digit then .goes .integer else .breaks
  | .zero =>
    if digit then .breaks else if c = '.' then .goes .point
    else if isMark then .goes .mark else .ends
  | .integer =>
    if digit then .goes .integer else if c = '.' then .goes .point
    else if isMark then .goes .mark else .ends
  | .point => if digit then .goes .fraction else .breaks
  | .fraction => if digit then .goes .fraction else if isMark then .goes .mark else .ends
  | .mark =>
    if digit then .goes .exponent else if c = '+' || c = '-' then .goes .sign else .breaks
  | .sign => if digit then .goes .exponent else .breaks
  | .exponent => if digit then .goes .exponent else .ends

/-- Whether a number may end at this place. -/
def NumberPlace.mayEnd : NumberPlace → Bool
  | .zero | .integer | .fraction | .exponent => true
  | _ => false

/-- A string with one more character. -/
def Quoted.push (q : Quoted) (c : Char) : Quoted where
  chars := c :: q.chars
  sound := q.sound && q.high.isNone

/-- A string with one more UTF-16 unit. Halves of a pair make one character together. -/
def Quoted.pushUnit (q : Quoted) (u : Nat) : Quoted :=
  if 0xD800 ≤ u ∧ u < 0xDC00 then
    { chars := q.chars, high := some u, sound := q.sound && q.high.isNone }
  else if 0xDC00 ≤ u ∧ u < 0xE000 then
    match q.high with
    | some h => { q with
        chars := Char.ofNat (0x10000 + (h - 0xD800) * 0x400 + (u - 0xDC00)) :: q.chars
        high := none }
    | none => { q with sound := false }
  else q.push (Char.ofNat u)

/-- A string that holds something that is no character. -/
def Quoted.spoil (q : Quoted) : Quoted := { q with sound := false }

/-- The token of a string that ends here. -/
def Quoted.token (q : Quoted) : Token :=
  .string (if q.sound && q.high.isNone then some q.chars.reverse else none)

/-- What the character after a backslash stands for. -/
def escaped? (c : Char) : Option Char :=
  match c with
  | '"' => some '"'
  | '\\' => some '\\'
  | '/' => some '/'
  | 'b' => some '\x08'
  | 'f' => some '\x0c'
  | 'n' => some '\n'
  | 'r' => some '\r'
  | 't' => some '\t'
  | _ => none

/-- The machine after junk. -/
def spoilt (out : List Token) : State := { out := .junk :: out, mode := .junk }

/-- The machine after one more character. -/
def stepChar (s : State) (c : Char) : State :=
  match s.mode with
  | .between => start s.out c
  | .word [] token => start (token :: s.out) c
  | .word (d :: rest) token =>
    if c = d then
      if rest.isEmpty then { out := token :: s.out } else { s with mode := .word rest token }
    else spoilt s.out
  | .number place spelling =>
    match numberMove place c with
    | .goes next => { s with mode := .number next (c :: spelling) }
    | .ends => start (.number spelling.reverse :: s.out) c
    | .breaks => spoilt s.out
  | .string q =>
    if c = '"' then { out := q.token :: s.out }
    else if c = '\\' then { s with mode := .escape q }
    else if c.toNat < 0x20 then spoilt s.out
    else { s with mode := .string (q.push c) }
  | .escape q =>
    if c = 'u' then { s with mode := .unit q 4 0 }
    else
      match escaped? c with
      | some d => { s with mode := .string (q.push d) }
      | none => spoilt s.out
  | .unit q left value =>
    match hexValue? c with
    | some d =>
      let value := value * 16 + d
      if left ≤ 1 then { s with mode := .string (q.pushUnit value) }
      else { s with mode := .unit q (left - 1) value }
    | none => spoilt s.out
  | .junk => s

/-- The machine after one more symbol. Bytes that are no character can only stand in a string. -/
def step (s : State) : Symbol → State
  | .char c => stepChar s c
  | .stray =>
    match s.mode with
    | .string q => { s with mode := .string q.spoil }
    | .junk => s
    | .number place spelling =>
      if place.mayEnd then spoilt (.number spelling.reverse :: s.out) else spoilt s.out
    | _ => spoilt s.out

/-- The tokens when the text ends here. -/
def finish (s : State) : List Token :=
  (match s.mode with
  | .between | .junk => s.out
  | .number place spelling =>
    if place.mayEnd then .number spelling.reverse :: s.out else .junk :: s.out
  | _ => .junk :: s.out).reverse

end Lexer

/-- The tokens of a text. -/
def tokens (ss : List Symbol) : List Token := Lexer.finish (ss.foldl Lexer.step {})

end TaskBoard.Json
