import TaskBoard.Net.Domain
import TaskBoard.Net.SocketAddress
import TaskBoard.Text.Percent

/-!
# Hosts

The host of a URL: a name or an address. In the special schemes a name that ends in a number is an
address of version 4, in one to four parts that may be octal or hexadecimal; in other schemes a
name is any text without the characters that a URL needs for itself.
-/

namespace TaskBoard.Net

open Text

/-- Why a text is no URL. -/
inductive UrlError where
  | relative
  | emptyHost
  | badPort
  | badIpv4
  | badIpv6
  | badDomain
  | badHostCharacter
deriving DecidableEq, Repr

/-- The wording of a URL error. -/
def UrlError.message : UrlError → String
  | relative => "relative URL without a base"
  | emptyHost => "empty host"
  | badPort => "invalid port number"
  | badIpv4 => "invalid IPv4 address"
  | badIpv6 => "invalid IPv6 address"
  | badDomain => "invalid international domain name"
  | badHostCharacter => "invalid domain character"

/-- The host of a URL. -/
inductive Host where
  | name (text : List Char)
  | v4 (address : Ipv4)
  | v6 (address : Ipv6)
deriving DecidableEq, Repr

namespace Host

/-- The text of a host. -/
def text : Host → List Char
  | name text => text
  | v4 a => a.text
  | v6 a => '[' :: a.text ++ [']']

/-- The digits of a number to a base. -/
def readBase (base : Nat) (cs : List Char) : Option Nat :=
  cs.foldlM (fun n c => do
    let d ← hexValue? c
    if d < base then some (n * base + d) else none) 0

/-- A number as part of an address of version 4: hexadecimal after `0x`, octal after `0`. -/
def readPart? : List Char → Option Nat
  | [] => none
  | '0' :: 'x' :: cs | '0' :: 'X' :: cs => readBase 16 cs
  | '0' :: c :: cs => readBase 8 (c :: cs)
  | cs => readBase 10 cs

/-- Whether the last label of a name is a number, so that the name has to be an address. -/
def endsInNumber (domain : List Char) : Bool :=
  let number (label : List Char) : Bool :=
    (!label.isEmpty && label.all isDigit) || (readPart? label).isSome
  match (splitLabels domain).reverse with
  | [] :: last :: _ => number last
  | last :: _ => number last
  | [] => false

/-- The address of version 4 that parts make. The last part fills the places that are left. -/
def joinParts (parts : List Nat) : Option Ipv4 :=
  match parts.reverse with
  | [] => none
  | last :: front =>
    if parts.length ≤ 4 ∧ last < Nat.pow 256 (5 - parts.length) ∧ front.all (· < 256) then
      some ⟨front.reverse.zipIdx.foldl (fun n (part, i) => n + part * Nat.pow 256 (3 - i)) last⟩
    else none

/-- The address of version 4 that a name spells. -/
def readIpv4 (domain : List Char) : Option Ipv4 := do
  let labels := splitLabels domain
  let labels := if labels.getLast? = some [] then labels.dropLast else labels
  let parts ← labels.mapM readPart?
  joinParts parts

/-- The address of version 6 between square brackets. -/
def readBracketed (cs : List Char) : Except UrlError Host :=
  if cs.getLast? = some ']' then
    match SocketAddress.takeIpv6 cs.dropLast with
    | some (a, []) => .ok (v6 a)
    | _ => .error .badIpv6
  else .error .badIpv6

/-- The host that a text denotes in a special scheme. -/
def readSpecial : List Char → Except UrlError Host
  | '[' :: cs => readBracketed cs
  | cs =>
    match domainToAscii (percentDecode (utf8Encode cs)) with
    | none => .error .badDomain
    | some [] => .error .emptyHost
    | some domain =>
      if endsInNumber domain then
        match readIpv4 domain with
        | some a => .ok (v4 a)
        | none => .error .badIpv4
      else .ok (name domain)

/-- Whether a host of any scheme may not hold the character. -/
def isForbidden (c : Char) : Bool :=
  c.toNat == 0 || "\t\n\r #/:<>?@[\\]^|".toList.contains c

/-- Whether a character is neither a control nor outside ASCII. -/
def isGraphic (c : Char) : Bool := 0x20 ≤ c.toNat && c.toNat < 0x7F

/-- The host that a text denotes in any other scheme. -/
def readOpaque : List Char → Except UrlError Host
  | '[' :: cs => readBracketed cs
  | cs =>
    if cs.any isForbidden then .error .badHostCharacter
    else .ok (name (percentEncode isGraphic cs))

end Host

end TaskBoard.Net
