import TaskBoard.Net.Ip

/-!
# Socket addresses

An address and a port, as in `0.0.0.0:8080` or `[::1]:8080`. The reader takes no leading zeros in
version 4, and in version 6 one `::` for at least one group, four bytes of version 4 in the last
two groups, and a numeric scope.
-/

namespace TaskBoard.Net

open Text

/-- An address and a port. -/
inductive SocketAddress where
  | v4 (address : Ipv4) (port : Nat)
  | v6 (address : Ipv6) (scope port : Nat)
deriving DecidableEq, Repr

namespace SocketAddress

/-- Whether the groups stand for an address of version 4. -/
def mapped? : List Nat → Option Ipv4
  | [0, 0, 0, 0, 0, 0xffff, a, b] => some ⟨a * 65536 + b⟩
  | _ => none

/-- The text of a socket address. -/
def text : SocketAddress → List Char
  | v4 a port => a.text ++ ':' :: natDigits port
  | v6 a scope port =>
    let inner := match mapped? a.groups with
      | some b => "::ffff:".toList ++ b.text
      | none => a.text
    let scope := if scope = 0 then [] else '%' :: natDigits scope
    '[' :: inner ++ scope ++ ']' :: ':' :: natDigits port

/-- Takes digits off the front: at least one, at most `most`, as a number up to `limit`. -/
def takeNumber (most limit : Nat) (cs : List Char) : Option (Nat × List Char) :=
  let digits := cs.takeWhile isDigit
  if digits.length ≤ most then
    match readNat? digits with
    | some n => if n ≤ limit then some (n, cs.dropWhile isDigit) else none
    | none => none
  else none

/-- One to three digits without a leading zero, below 256. -/
def takeByte (cs : List Char) : Option (Nat × List Char) :=
  match cs with
  | '0' :: c :: _ => if isDigit c then none else takeNumber 3 255 cs
  | _ => takeNumber 3 255 cs

/-- Takes the character `c` off the front. -/
def takeMark (c : Char) : List Char → Option (List Char)
  | d :: cs => if d = c then some cs else none
  | [] => none

/-- Takes an address of version 4 off the front. -/
def takeIpv4 (cs : List Char) : Option (Ipv4 × List Char) := do
  let (a, cs) ← takeByte cs
  let cs ← takeMark '.' cs
  let (b, cs) ← takeByte cs
  let cs ← takeMark '.' cs
  let (c, cs) ← takeByte cs
  let cs ← takeMark '.' cs
  let (d, cs) ← takeByte cs
  return (⟨((a * 256 + b) * 256 + c) * 256 + d⟩, cs)

/-- Takes one group of up to four hexadecimal digits off the front. -/
def takeGroup (cs : List Char) : Option (Nat × List Char) :=
  let digits := cs.takeWhile fun c => (hexValue? c).isSome
  if digits.isEmpty || 4 < digits.length then none
  else some (digits.foldl (fun n c => n * 16 + (hexValue? c).getD 0) 0, cs.drop digits.length)

/-- Takes groups with colons between them off the front, at most `room` of them. The flag says
whether the last two were given as version 4, after which none follows. -/
def takeGroups : (room : Nat) → (first : Bool) → List Char → List Nat × Bool × List Char
  | 0, _, cs => ([], false, cs)
  | room + 1, first, cs =>
    match if first then some cs else takeMark ':' cs with
    | none => ([], false, cs)
    | some inner =>
      match if room = 0 then none else takeIpv4 inner with
      | some (a, cs) => ([a.number / 65536, a.number % 65536], true, cs)
      | none =>
        match takeGroup inner with
        | some (g, cs) =>
          let (gs, dotted, cs) := takeGroups room false cs
          (g :: gs, dotted, cs)
        | none => ([], false, cs)

/-- Takes an address of version 6 off the front. -/
def takeIpv6 (cs : List Char) : Option (Ipv6 × List Char) :=
  let (head, dotted, cs) := takeGroups 8 true cs
  if head.length = 8 then some (⟨head⟩, cs)
  else if dotted then none
  else do
    let cs ← takeMark ':' cs
    let cs ← takeMark ':' cs
    let (tail, _, cs) := takeGroups (7 - head.length) true cs
    return (⟨head ++ List.replicate (8 - head.length - tail.length) 0 ++ tail⟩, cs)

/-- A port after its colon, at the end of the text. -/
def readPort (cs : List Char) : Option Nat := do
  let cs ← takeMark ':' cs
  let (port, cs) ← takeNumber cs.length 65535 cs
  if cs.isEmpty then some port else none

/-- An optional scope after a percent sign. -/
def takeScope : List Char → Option (Nat × List Char)
  | '%' :: cs => takeNumber cs.length 4294967295 cs
  | cs => some (0, cs)

/-- The socket address that a text denotes. -/
def read? (cs : List Char) : Option SocketAddress :=
  match cs with
  | '[' :: cs => do
    let (a, cs) ← takeIpv6 cs
    let (scope, cs) ← takeScope cs
    let cs ← takeMark ']' cs
    let port ← readPort cs
    return v6 a scope port
  | cs => do
    let (a, cs) ← takeIpv4 cs
    let port ← readPort cs
    return v4 a port

end SocketAddress

end TaskBoard.Net
