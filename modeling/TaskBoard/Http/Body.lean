import TaskBoard.Http.Fault
import TaskBoard.Http.ListParams
import TaskBoard.Http.MediaType
import TaskBoard.Http.Message
import TaskBoard.Json.Reader
import TaskBoard.Text.Percent

/-!
# What requests carry

Reading the JSON body of a request and the parameters of a list request. Of several things wrong
with a body the first counts: its declared type, its length, its text, its shape.
-/

namespace TaskBoard.Http

open Text

/-- The greatest length of a body in bytes. -/
def maxBodyLength : Nat := 2097152

/-- A fault of a request body. -/
def bodyFault (reason : String) : Fault := .badRequest ("invalid request body: " ++ reason)

/-- The fault of a body that cannot be read. -/
def jsonFault : Json.Error → Fault
  | .malformed => bodyFault ("Failed to parse the request body as JSON: " ++ Json.Error.malformed.message)
  | .shape way cause =>
    bodyFault <| "Failed to deserialize the JSON body into the target type: "
      ++ (if way.isEmpty then "" else Json.wayText way ++ ": ") ++ cause.message

/-- The value in the body of a request. -/
def readBody {α : Type} (read : Json.Reader α) (headers : Headers) (body : List UInt8) :
    Except Fault α :=
  if !(headers.get? "content-type").any MediaType.isJson then
    .error (bodyFault "Expected request with `Content-Type: application/json`")
  else if maxBodyLength < body.length then
    .error (bodyFault "Failed to buffer the request body: length limit exceeded")
  else (read.decode (utf8Decode body)).mapError jsonFault

/-- The parameters with one more pair. A parameter given twice is a fault; one that is not known
says nothing. -/
def ListParams.add (p : ListParams) (name value : List Char) : Except Fault ListParams :=
  let once (old : Option String) (new : ListParams) : Except Fault ListParams :=
    if old.isSome then
      .error <| .badRequest <|
        "Failed to deserialize query string: duplicate field `" ++ String.ofList name ++ "`"
    else .ok new
  let value := some (String.ofList value)
  match String.ofList name with
  | "limit" => once p.limit { p with limit := value }
  | "offset" => once p.offset { p with offset := value }
  | "completed" => once p.completed { p with completed := value }
  | "assignee" => once p.assignee { p with assignee := value }
  | _ => .ok p

/-- The parameters in a query string. -/
def ListParams.ofQuery (query : Option (List Char)) : Except Fault ListParams :=
  (formPairs (utf8Encode (query.getD []))).foldlM (fun p (name, value) => p.add name value) {}

end TaskBoard.Http
