import TaskBoard.Text.Decimal

/-!
# Writing JSON

Compact JSON: no white space, members in the order given. In a string, quotes, backslashes and
controls are escaped and all else stands for itself.
-/

namespace TaskBoard.Json

open Text

/-- The two lower-case hexadecimal digits of a number below 256. -/
def hexPair (n : Nat) : List Char :=
  if n < 16 then '0' :: hexDigits n else hexDigits n

/-- A character as it stands in a JSON string. -/
def escapeChar (c : Char) : List Char :=
  match c with
  | '"' => ['\\', '"']
  | '\\' => ['\\', '\\']
  | '\x08' => ['\\', 'b']
  | '\x0c' => ['\\', 'f']
  | '\n' => ['\\', 'n']
  | '\r' => ['\\', 'r']
  | '\t' => ['\\', 't']
  | c => if c.toNat < 0x20 then ['\\', 'u', '0', '0'] ++ hexPair c.toNat else [c]

/-- A JSON string. -/
def writeString (s : String) : List Char := '"' :: s.toList.flatMap escapeChar ++ ['"']

/-- A JSON truth value. -/
def writeBool (b : Bool) : List Char := if b then "true".toList else "false".toList

/-- An integer. -/
def writeInt64 (i : Int64) : List Char := intDigits i.toInt

/-- A value, or null for none. -/
def writeOption {α : Type} (write : α → List Char) : Option α → List Char
  | none => "null".toList
  | some value => write value

/-- Parts with commas between them. -/
def commaSeparated : List (List Char) → List Char
  | [] => []
  | [part] => part
  | part :: parts => part ++ ',' :: commaSeparated parts

/-- An array of parts already written. -/
def writeArray (parts : List (List Char)) : List Char := '[' :: commaSeparated parts ++ [']']

/-- An object with values already written. -/
def writeObject (members : List (String × List Char)) : List Char :=
  '{' :: commaSeparated (members.map fun (name, value) => writeString name ++ ':' :: value) ++ ['}']

end TaskBoard.Json
