import TaskBoard.Json.Token

/-!
# Skipping a value

`skip` walks over one JSON value of any depth without building it. The arrays and objects that
are open are an explicit list, so depth costs no stack.
-/

namespace TaskBoard.Json

/-- What an open bracket belongs to. -/
inductive Frame where
  | array
  | object
deriving DecidableEq, Repr

/-- What may come next within a value. -/
inductive Expecting where
  | value
  /-- A value, or the end of an array just opened. -/
  | firstValue
  | key
  /-- A key, or the end of an object just opened. -/
  | firstKey
  | colon
  /-- A comma or the end of what is open. -/
  | more
deriving DecidableEq, Repr

/-- The tokens after the rest of a value, with the frames that are open, innermost first. -/
def skipFrom : Expecting → List Frame → List Token → Option (List Token)
  | _, _, [] => none
  | want, frames, t :: ts =>
    match want, t, frames with
    | .firstValue, .closeArray, .array :: [] => some ts
    | .firstValue, .closeArray, .array :: frames => skipFrom .more frames ts
    | .value, .openArray, frames | .firstValue, .openArray, frames =>
      skipFrom .firstValue (.array :: frames) ts
    | .value, .openObject, frames | .firstValue, .openObject, frames =>
      skipFrom .firstKey (.object :: frames) ts
    | .value, t, frames | .firstValue, t, frames =>
      match t, frames with
      | .null, [] | .bool _, [] | .number _, [] | .string _, [] => some ts
      | .null, frames | .bool _, frames | .number _, frames | .string _, frames =>
        skipFrom .more frames ts
      | _, _ => none
    | .firstKey, .closeObject, .object :: [] => some ts
    | .firstKey, .closeObject, .object :: frames => skipFrom .more frames ts
    | .firstKey, .string _, frames | .key, .string _, frames => skipFrom .colon frames ts
    | .colon, .colon, frames => skipFrom .value frames ts
    | .more, .comma, .array :: frames => skipFrom .value (.array :: frames) ts
    | .more, .comma, .object :: frames => skipFrom .key (.object :: frames) ts
    | .more, .closeArray, .array :: [] | .more, .closeObject, .object :: [] => some ts
    | .more, .closeArray, .array :: frames | .more, .closeObject, .object :: frames =>
      skipFrom .more frames ts
    | _, _, _ => none

/-- The tokens after one value. -/
def skip (ts : List Token) : Option (List Token) := skipFrom .value [] ts

end TaskBoard.Json
