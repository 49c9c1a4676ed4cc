import TaskBoard.Text.Ascii
import TaskBoard.Text.Decimal

/-!
# Media types

Whether the value of a `content-type` header says that a body is JSON: the type `application`, the
subtype `json` or a subtype with the suffix `+json`, and any well-formed parameters.
-/

namespace TaskBoard.Http.MediaType

open Text

/-- The characters of names in headers. -/
def isToken (c : Char) : Bool :=
  isAsciiLetter c || isDigit c || "!#$%&'*+-.^_`|~".toList.contains c

/-- The inside of a quoted value up to its quote, which may not be its first character, and then
spaces up to the next semicolon. -/
def afterQuoted : (first : Bool) → List Char → Option (List Char)
  | _, [] => none
  | first, c :: cs =>
    if c = '"' && !first then
      match cs.dropWhile (· == ' ') with
      | [] => some []
      | ';' :: rest => some rest
      | _ => none
    else if 0x20 ≤ c.toNat && c.toNat < 0x7F then afterQuoted false cs
    else none

/-- A parameter value, and what follows the semicolon after it. -/
def afterValue (cs : List Char) : Option (List Char) :=
  match cs with
  | '"' :: cs => afterQuoted true cs
  | _ =>
    let value := cs.takeWhile isToken
    match cs.dropWhile isToken with
    | [] => some []
    | ';' :: rest => if value.isEmpty then none else some rest
    | _ => none

/-- A parameter, and what follows the semicolon after it. -/
def afterParameter (cs : List Char) : Option (List Char) :=
  let name := cs.takeWhile isToken
  match cs.dropWhile isToken with
  | '=' :: rest => if name.isEmpty then none else afterValue rest
  | _ => none

/-- Whether parameters are well-formed. The fuel bounds their number. -/
def areParameters : Nat → List Char → Bool
  | 0, cs => cs.isEmpty
  | fuel + 1, cs =>
    match cs.dropWhile (· == ' ') with
    | [] => true
    | cs =>
      match afterParameter cs with
      | some rest => areParameters fuel rest
      | none => false

/-- A subtype split at its last plus sign, which may not be its first character. -/
def splitSuffix (subtype : List Char) : List Char × Option (List Char) :=
  let suffix := (subtype.reverse.takeWhile (· != '+')).reverse
  let main := subtype.take (subtype.length - suffix.length - 1)
  if suffix.length < subtype.length && !main.isEmpty then (main, some suffix) else (subtype, none)

/-- Whether a subtype stands for JSON. -/
def isJsonSubtype (subtype : List Char) : Bool :=
  let (main, suffix) := splitSuffix (subtype.map lowerAscii)
  main == "json".toList || suffix == some "json".toList

/-- Whether a header value says that a body is JSON. -/
def isJson (value : String) : Bool :=
  let cs := value.toList
  let name := cs.takeWhile isToken
  match cs.dropWhile isToken with
  | '/' :: rest =>
    let subtype := rest.takeWhile isToken
    let parameters := match rest.dropWhile isToken with
      | [] => true
      | ';' :: rest => areParameters rest.length rest
      | _ => false
    name.map lowerAscii == "application".toList && !subtype.isEmpty && parameters
      && isJsonSubtype subtype
  | _ => false

end TaskBoard.Http.MediaType
