import TaskBoard.Text.Ascii

/-!
# HTTP messages

Requests and responses as plain data. Header names are compared without regard to ASCII case.
-/

namespace TaskBoard.Http

/-- Header names and values, in order. -/
abbrev Headers := List (String × String)

/-- The first value of a header. -/
def Headers.get? (hs : Headers) (name : String) : Option String :=
  (hs.find? fun (key, _) => Text.lowered key == Text.lowered name).map (·.2)

/-- A request as a server receives it. -/
structure Request where
  method : String
  uri : String
  headers : Headers
  body : List UInt8
deriving DecidableEq

/-- An answer to a request. -/
structure Response where
  status : Nat
  headers : Headers
  body : String
deriving DecidableEq, Repr

end TaskBoard.Http
