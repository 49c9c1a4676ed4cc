import TaskBoard.Net.Host

/-!
# URLs

A URL in its parts, every part already in the form in which it is written. A path is a list of
segments, each with a slash before it, or an opaque text that nothing can be appended to.
-/

namespace TaskBoard.Net

open Text

/-- The path of a URL. -/
inductive Url.Path where
  | opaqueText (text : List Char)
  | segments (list : List (List Char))
deriving DecidableEq, Repr

/-- A URL. -/
structure Url where
  scheme : List Char
  username : List Char := []
  password : List Char := []
  host : Option Host := none
  /-- The port, unless it is the usual one of the scheme. -/
  port : Option Nat := none
  path : Url.Path
  query : Option (List Char) := none
  fragment : Option (List Char) := none
deriving DecidableEq, Repr

namespace Url

/-- The kinds of schemes. -/
inductive Kind where
  | file
  | special
  | other
deriving DecidableEq, Repr

/-- The kind of a scheme. -/
def kindOf (scheme : List Char) : Kind :=
  if scheme = "file".toList then .file
  else if ["http".toList, "https".toList, "ws".toList, "wss".toList, "ftp".toList].contains scheme
    then .special
  else .other

/-- Whether a scheme is one of those that browsers know. -/
def Kind.isSpecial : Kind → Bool
  | other => false
  | _ => true

/-- The usual port of a scheme. -/
def usualPort (scheme : List Char) : Option Nat :=
  if scheme = "http".toList ∨ scheme = "ws".toList then some 80
  else if scheme = "https".toList ∨ scheme = "wss".toList then some 443
  else if scheme = "ftp".toList then some 21
  else none

/-- Segments with a slash before each. -/
def segmentsText (segments : List (List Char)) : List Char := segments.flatMap ('/' :: ·)

/-- The text of a path. -/
def Path.text : Path → List Char
  | opaqueText text => text
  | segments list => segmentsText list

/-- Whether nothing can be appended to the path. -/
def Path.isOpaque : Path → Bool
  | opaqueText _ => true
  | segments _ => false

/-- User name and password before the host. -/
def credentialsText (u : Url) : List Char :=
  if u.username.isEmpty && u.password.isEmpty then []
  else
    u.username ++ (if u.password.isEmpty then [] else ':' :: u.password) ++ ['@']

/-- What stands between the scheme and the path. A path that begins with two slashes and follows
no host is kept apart by `/.`. -/
def authorityText (u : Url) : List Char :=
  match u.host with
  | some host =>
    "//".toList ++ u.credentialsText ++ host.text
      ++ u.port.elim [] (fun port => ':' :: natDigits port)
  | none =>
    if kindOf u.scheme = .file then "//".toList
    else
      match u.path with
      | .segments ([] :: _ :: _) => "/.".toList
      | _ => []

/-- The characters of a URL. -/
def print (u : Url) : List Char :=
  u.scheme ++ ':' :: u.authorityText ++ u.path.text
    ++ u.query.elim [] ('?' :: ·) ++ u.fragment.elim [] ('#' :: ·)

/-- The text of a URL. -/
def text (u : Url) : String := String.ofList u.print

/-- The pairs of the query, read as a form. -/
def parameters (u : Url) : List (List Char × List Char) :=
  u.query.elim [] fun query => formPairs (utf8Encode query)

/-! ## Characters that need no encoding -/

/-- In a fragment. -/
def keptInFragment (c : Char) : Bool := Host.isGraphic c && !(" \"<>`".toList.contains c)

/-- In a path. -/
def keptInPath (c : Char) : Bool := keptInFragment c && !("#?\x7b\x7d".toList.contains c)

/-- In a single segment of a path, which must not be taken for several or for encoded text. -/
def keptInSegment (kind : Kind) (c : Char) : Bool :=
  keptInPath c && c != '/' && c != '%' && !(kind.isSpecial && c == '\\')

/-- In a user name or password. -/
def keptInCredentials (c : Char) : Bool :=
  keptInPath c && !("/:;=@[\\]^|".toList.contains c)

/-- In a query. -/
def keptInQuery (kind : Kind) (c : Char) : Bool :=
  Host.isGraphic c && !(" \"#<>".toList.contains c) && !(kind.isSpecial && c == '\'')

end Url

end TaskBoard.Net
