import TaskBoard.Text.Ascii
import TaskBoard.Text.Decimal

/-!
# Request targets

What stands in a request line after the method: a path with an optional query, a whole URL, a bare
authority, or a star. A fragment is cut off. The characters allowed are those that need no
percent-encoding, and any beyond ASCII.
-/

namespace TaskBoard.Http

open Text

/-- The part of a target that a router looks at. -/
structure Target where
  path : List Char
  query : Option (List Char)
deriving DecidableEq, Repr

namespace Target

/-- The greatest length of a target in bytes. -/
def maxLength : Nat := 65534

/-- Whether a path may hold the character. -/
def isPathChar (c : Char) : Bool :=
  let n := c.toNat
  n == 0x21 || n == 0x22 || (0x24 ≤ n && n ≤ 0x3B) || n == 0x3D || (0x40 ≤ n && n ≤ 0x5F)
    || (0x61 ≤ n && n ≤ 0x7E) || 0x7F ≤ n

/-- Whether a query may hold the character. -/
def isQueryChar (c : Char) : Bool :=
  let n := c.toNat
  n == 0x21 || (0x24 ≤ n && n ≤ 0x3B) || n == 0x3D || 0x3F ≤ n

/-- A path and a query, without the fragment. An empty path is a slash. -/
def readPath (cs : List Char) : Option Target :=
  let cs := cs.takeWhile (· != '#')
  let path := cs.takeWhile (· != '?')
  let query := match cs.dropWhile (· != '?') with
    | _ :: query => some query
    | [] => none
  if path.all isPathChar && (query.getD []).all isQueryChar then
    some ⟨if path.isEmpty then ['/'] else path, query⟩
  else none

/-- Whether an authority may hold the character. -/
def isAuthorityChar (c : Char) : Bool :=
  isAsciiLetter c || isDigit c || "!$&'()*+,-.:;=@[]_~%".toList.contains c

/-- What has been seen of an authority. -/
structure Seen where
  /-- Colons that are not part of credentials or brackets. -/
  colons : Nat := 0
  opened : Bool := false
  closed : Bool := false
  percent : Bool := false
  /-- Whether the last character was the one after credentials. -/
  atEnd : Bool := false

/-- What has been seen after one more character, if it may stand there. -/
def Seen.step (s : Seen) (c : Char) : Option Seen :=
  let s := { s with atEnd := c == '@' }
  match c with
  | ':' => if 8 ≤ s.colons then none else some { s with colons := s.colons + 1 }
  | '[' => if s.percent || s.opened then none else some { s with opened := true }
  | ']' =>
    if !s.opened || s.closed then none
    else some { s with closed := true, colons := 0, percent := false }
  | '@' => some { s with colons := 0, percent := false }
  | '%' => some { s with percent := true }
  | c => if isAuthorityChar c then some s else none

/-- Whether a text is an authority: brackets in a pair, at most one colon outside of them, no
percent sign outside of credentials, and something after credentials. -/
def isAuthority (cs : List Char) : Bool :=
  match cs.foldlM Seen.step {} with
  | some s => s.opened == s.closed && s.colons ≤ 1 && !s.percent && !s.atEnd
  | none => false

/-- Splits an authority off the front of a text. -/
def splitAuthority (cs : List Char) : List Char × List Char :=
  let ends (c : Char) : Bool := c == '/' || c == '?' || c == '#'
  (cs.takeWhile fun c => !ends c, cs.dropWhile fun c => !ends c)

/-- The text after a scheme and `://`, if there is a scheme of at most 64 characters. A longer one
is an error. -/
def afterScheme (cs : List Char) : Option (Option (List Char)) :=
  let isSchemeChar (c : Char) : Bool :=
    isAsciiLetter c || isDigit c || c == '+' || c == '-' || c == '.'
  let scheme := cs.takeWhile isSchemeChar
  match cs.dropWhile isSchemeChar with
  | ':' :: '/' :: '/' :: rest =>
    if cs.length ≤ 3 then some none
    else if 64 < scheme.length then none
    else some (some rest)
  | _ => some none

/-- The target that a text spells. -/
def read (text : String) : Option Target :=
  let cs := text.toList
  if maxLength < text.utf8ByteSize then none
  else
    match cs with
    | [] => none
    | ['*'] => some ⟨cs, none⟩
    | '/' :: _ => readPath cs
    | _ =>
      match afterScheme cs with
      | none => none
      | some none => if isAuthority cs then some ⟨[], none⟩ else none
      | some (some rest) =>
        let (authority, rest) := splitAuthority rest
        if !authority.isEmpty && isAuthority authority then readPath rest else none

end Target

end TaskBoard.Http
