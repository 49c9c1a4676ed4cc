import TaskBoard.Net.Url.Path

/-!
# Reading a URL

The URL that a text spells on its own, without a base to be relative to. Controls and spaces at
both ends and tabs and line ends anywhere do not count.
-/

namespace TaskBoard.Net.Url

open Text

/-- What follows the authority: path, query and fragment are cut at the first `?` and `#`. -/
structure Tail where
  path : List Char
  query : Option (List Char)
  fragment : Option (List Char)
deriving DecidableEq, Repr

/-- Cuts a text at the first `#`, and what is before it at the first `?`. -/
def Tail.ofText (cs : List Char) : Tail :=
  let front := cs.takeWhile (· != '#')
  let fragment := match cs.dropWhile (· != '#') with
    | _ :: rest => some rest
    | [] => none
  match front.dropWhile (· != '?') with
  | _ :: query => ⟨front.takeWhile (· != '?'), some query, fragment⟩
  | [] => ⟨front, none, fragment⟩

/-- A URL with the query and the fragment of a tail. -/
def withTail (u : Url) (t : Tail) : Url :=
  { u with
    query := t.query.map (percentEncode (keptInQuery (kindOf u.scheme)))
    fragment := t.fragment.map (percentEncode keptInFragment) }

/-- The scheme of a text, in lower case, and what follows its colon. -/
def splitScheme (cs : List Char) : Option (List Char × List Char) :=
  let isSchemeChar (c : Char) : Bool :=
    isAsciiLetter c || isDigit c || c == '+' || c == '-' || c == '.'
  match cs with
  | [] => none
  | c :: _ =>
    match isAsciiLetter c, cs.dropWhile isSchemeChar with
    | true, ':' :: rest => some ((cs.takeWhile isSchemeChar).map lowerAscii, rest)
    | _, _ => none

/-- Whether the authority ends before the character. -/
def endsAuthority (kind : Kind) (c : Char) : Bool :=
  c == '/' || c == '?' || c == '#' || (kind.isSpecial && c == '\\')

/-- Credentials in front of the last `@` of an authority, and the rest. -/
def splitCredentials (authority : List Char) : Option (List Char) × List Char :=
  if authority.contains '@' then
    let host := (authority.reverse.takeWhile (· != '@')).reverse
    (some (authority.take (authority.length - host.length - 1)), host)
  else (none, authority)

/-- Host and port text of an authority without credentials. A colon within square brackets
separates no port. -/
def splitHost : (inside : Bool) → List Char → List Char × Option (List Char)
  | _, [] => ([], none)
  | inside, c :: cs =>
    if c = ':' && !inside then ([], some cs)
    else
      let (host, port) := splitHost (if c = '[' then true else if c = ']' then false else inside) cs
      (c :: host, port)

/-- A port of at most 16 bits, and what of the text follows its digits. -/
def readPort (cs : List Char) : Except UrlError (Option Nat × List Char) :=
  let digits := cs.takeWhile isDigit
  let rest := cs.dropWhile isDigit
  match readNat? digits with
  | none => .ok (none, rest)
  | some n => if n < 65536 then .ok (some n, rest) else .error .badPort

/-- The port after a colon, unless it is the usual one of the scheme. Only a backslash may follow
it here; the text from there on belongs to the path. -/
def portPart (scheme cs : List Char) : Except UrlError (Option Nat × List Char) := do
  let (port, rest) ← readPort cs
  match rest with
  | [] | '\\' :: _ => .ok (if port = usualPort scheme then none else port, rest)
  | _ => .error .badPort

/-- User name and password of credentials. -/
def readCredentials (cs : List Char) : List Char × List Char :=
  let encode := percentEncode keptInCredentials
  (encode (cs.takeWhile (· != ':')), encode ((cs.dropWhile (· != ':')).drop 1))

/-- The path of a tail after an authority. -/
def pathAfterAuthority (kind : Kind) (cs : List Char) : List (List Char) :=
  match cs with
  | [] => if kind.isSpecial then [[]] else []
  | c :: rest => readSegments kind (if isSlash kind c then rest else cs)

/-- Reads what follows `scheme://`. -/
def readAuthority (scheme cs : List Char) : Except UrlError Url := do
  let kind := kindOf scheme
  let authority := cs.takeWhile fun c => !endsAuthority kind c
  let (credentials, place) := splitCredentials authority
  let after := cs.drop authority.length
  if credentials = some [] ∧ place = [] ∧ after ≠ [] then throw .emptyHost
  let (hostText, portText) := splitHost false place
  if hostText = [] ∧ kind = .special then throw .emptyHost
  let host ← if kind = .special then Host.readSpecial hostText else Host.readOpaque hostText
  if hostText = [] ∧ portText.isSome then throw .emptyHost
  let (port, rest) ← match portText with
    | some text => portPart scheme text
    | none => .ok (none, [])
  let (username, password) := readCredentials (credentials.getD [])
  let named := !(username.isEmpty && password.isEmpty)
  if hostText = [] ∧ named then throw .emptyHost
  let tail := Tail.ofText (rest ++ after)
  return withTail
    { scheme, username, password, port
      host := some host
      path := .segments (pathAfterAuthority kind tail.path) } tail

/-- Whether a text begins with the name of a drive and nothing else before a slash or the end. -/
def isDriveText : List Char → Bool
  | [c, d] => isAsciiLetter c && (d == ':' || d == '|')
  | _ => false

/-- The host of a file URL; `localhost` is none. -/
def readFileHost (cs : List Char) : Except UrlError (Option Host) :=
  if cs.isEmpty then .ok none
  else do
    let host ← Host.readSpecial cs
    return if host = .name "localhost".toList then none else some host

/-- Reads what follows `file:`. -/
def readFile (cs : List Char) : Except UrlError Url := do
  let scheme := "file".toList
  let isSlash (c : Char) : Bool := c == '/' || c == '\\'
  match cs with
  | a :: b :: rest =>
    if isSlash a && isSlash b then
      let place := rest.takeWhile fun c => !endsAuthority .file c
      let hostText := if isDriveText place then [] else place
      let host ← readFileHost hostText
      let tail := Tail.ofText (rest.drop hostText.length)
      let path := match tail.path with
        | [] => [[]]
        | c :: cs => readSegments .file (if isSlash c then cs else c :: cs)
      let host := if path.head?.any isDrive then none else host
      return withTail { scheme, host, path := .segments path } tail
    else return plain scheme cs
  | _ => return plain scheme cs
where
  /-- A file URL without a host. -/
  plain (scheme cs : List Char) : Url :=
    let tail := Tail.ofText cs
    withTail { scheme, path := .segments (readSegments .file tail.path) } tail

/-- Reads what follows the colon of a scheme of no special kind. -/
def readOther (scheme cs : List Char) : Except UrlError Url :=
  match cs with
  | '/' :: '/' :: rest => readAuthority scheme rest
  | '/' :: rest =>
    let tail := Tail.ofText rest
    .ok (withTail { scheme, path := .segments (readSegments .other tail.path) } tail)
  | cs =>
    let tail := Tail.ofText cs
    .ok (withTail { scheme, path := .opaqueText (percentEncode Host.isGraphic tail.path) } tail)

/-- Whether a character does not count at the ends of a URL. -/
def isMargin (c : Char) : Bool := c.toNat ≤ 0x20

/-- The URL that a text spells. -/
def read (cs : List Char) : Except UrlError Url :=
  let cs := ((cs.dropWhile isMargin).reverse.dropWhile isMargin).reverse
  let cs := cs.filter fun c => c != '\t' && c != '\n' && c != '\r'
  match splitScheme cs with
  | none => .error .relative
  | some (scheme, rest) =>
    match kindOf scheme with
    | .file => readFile rest
    | .special => readAuthority scheme (rest.dropWhile fun c => c == '/' || c == '\\')
    | .other => readOther scheme rest

end TaskBoard.Net.Url
