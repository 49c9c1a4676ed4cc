import TaskBoard.Instant.Read
import TaskBoard.Text.Decimal
import TaskBoard.Text.Quoted

/-!
# Why a JSON text cannot be read

Either the text is not JSON, or it is JSON of the wrong shape. For a wrong shape there is a cause,
with one wording (`Cause.message`), and the way to the place (`Error.located` puts it in front).
-/

namespace TaskBoard.Json

open Text

/-- What was met instead of the value wanted. -/
inductive Found where
  | null
  | bool (b : Bool)
  | natural (n : Nat)
  | negative (n : Nat)
  /-- A double, by its text. -/
  | double (text : List Char)
  | string (chars : List Char)
  | sequence
  | map
deriving DecidableEq, Repr

/-- What a reader wants. -/
inductive Wanted where
  | string
  | boolean
  | integer
  | instant
  | sequence
  /-- A record of this name. -/
  | record (name : String)
deriving DecidableEq, Repr

/-- A way into a value: the member of an object or the place in an array. -/
inductive Step where
  | member (name : String)
  | element (index : Nat)
deriving DecidableEq, Repr

/-- Why a well-formed text has the wrong shape. -/
inductive Cause where
  | wrongType (found : Found) (wanted : Wanted)
  /-- An integer that the wanted type does not hold. -/
  | wrongValue (found : Found) (wanted : Wanted)
  /-- An array with `count` elements for the record `name` with `size` members. -/
  | wrongLength (count : Nat) (name : String) (size : Nat)
  | missing (name : String)
  | duplicate (name : String)
  | badInstant (e : Instant.ReadError)
deriving DecidableEq, Repr

/-- Why a text cannot be read. -/
inductive Error where
  | malformed
  | shape (way : List Step) (cause : Cause)
deriving DecidableEq, Repr

/-- The words for what was met. -/
def Found.text : Found → List Char
  | null => "null".toList
  | bool b => (if b then "boolean `true`" else "boolean `false`").toList
  | natural n => "integer `".toList ++ natDigits n ++ "`".toList
  | negative n => "integer `-".toList ++ natDigits n ++ "`".toList
  | double text => "floating point `".toList ++ text ++ "`".toList
  | string chars => "string ".toList ++ quoted chars
  | sequence => "sequence".toList
  | map => "map".toList

/-- The words for what is wanted. -/
def Wanted.text : Wanted → String
  | string => "a string"
  | boolean => "a boolean"
  | integer => "i64"
  | instant => "an RFC 3339 formatted date and time string"
  | sequence => "a sequence"
  | record name => "struct " ++ name

/-- The wording of a cause. -/
def Cause.message : Cause → String
  | wrongType found wanted =>
    "invalid type: " ++ String.ofList found.text ++ ", expected " ++ wanted.text
  | wrongValue found wanted =>
    "invalid value: " ++ String.ofList found.text ++ ", expected " ++ wanted.text
  | wrongLength count name size =>
    "invalid length " ++ natText count ++ ", expected struct " ++ name ++ " with " ++ natText size
      ++ (if size = 1 then " element" else " elements")
  | missing name => "missing field `" ++ name ++ "`"
  | duplicate name => "duplicate field `" ++ name ++ "`"
  | badInstant e => e.message

/-- The wording of an error without the way to its place. What is wrong with a text that is not
JSON is not told. -/
def Error.message : Error → String
  | malformed => "<syntax>"
  | shape _ cause => cause.message

/-- A way written out, as in `items[2].title`. -/
def wayText : List Step → String
  | [] => ""
  | .member name :: rest => name ++ tail rest
  | .element i :: rest => "[" ++ natText i ++ "]" ++ tail rest
where
  /-- The steps after the first. -/
  tail : List Step → String
    | [] => ""
    | .member name :: rest => "." ++ name ++ tail rest
    | .element i :: rest => "[" ++ natText i ++ "]" ++ tail rest

/-- The error with one more step in front of its way. Only a cause inside a value has a way: a
missing, doubled or lacking member belongs to the whole record. -/
def Error.within (step : Step) : Error → Error
  | malformed => malformed
  | shape way cause => shape (step :: way) cause

end TaskBoard.Json
