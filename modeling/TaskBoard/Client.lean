import TaskBoard.Http.Message
import TaskBoard.Json.Value
import TaskBoard.Net.Url.Read
import TaskBoard.Task.Wire

/-!
# The client

A client holds the URL of a server. For each operation it builds a request, and it reads the
response that somebody else has fetched. A status that the operation does not expect is an error:
404 and 400 have their own, and of a 400 the message in the body counts.
-/

namespace TaskBoard

open Http Text

/-- Why the client could not build a request or read a response. -/
inductive ClientError where
  | notFound
  | badRequest (message : String)
  | http (status : Nat) (body : String)
  | invalidUrl (reason : String)
  | deserialization (reason : String)
  | serialization (reason : String)
deriving DecidableEq, Repr

/-- The wording of a client error. -/
def ClientError.message : ClientError → String
  | notFound => "task not found"
  | badRequest message => "bad request: " ++ message
  | http status body => "HTTP " ++ natText status ++ ": " ++ body
  | invalidUrl reason => "invalid base url: " ++ reason
  | deserialization reason => "deserialization failed: " ++ reason
  | serialization reason => "serialization failed: " ++ reason

/-- A client of the server at a URL to whose path can be appended. -/
structure Client where
  base : Net.Url
  not_opaque : base.path.isOpaque = false

namespace Client

/-- The methods of requests. -/
inductive Method where
  | get
  | post
  | put
  | delete
deriving DecidableEq, Repr

/-- The name of a method. -/
def Method.name : Method → String
  | get => "GET"
  | post => "POST"
  | put => "PUT"
  | delete => "DELETE"

/-- A request to be sent. -/
structure Call where
  method : Method
  url : Net.Url
  headers : Headers
  body : Option String
deriving DecidableEq, Repr

/-- The request as a server receives it. -/
def Call.toRequest (c : Call) : Request where
  method := c.method.name
  uri := c.url.text
  headers := c.headers
  body := c.body.elim [] fun text => utf8Encode text.toList

/-- The client of the server at a URL. -/
def ofText (text : String) : Except ClientError Client :=
  match Net.Url.read text.toList with
  | .error e => .error (.invalidUrl e.message)
  | .ok base =>
    if h : base.path.isOpaque = false then .ok ⟨base, h⟩ else .error (.invalidUrl base.text)

/-- The path of the tasks. -/
def tasksPath : List (List Char) := ["api".toList, "v1".toList, "tasks".toList]

/-- The URL of a path under the server's. -/
def url (c : Client) (texts : List (List Char)) : Net.Url := c.base.extend texts

/-- The URL of one task. -/
def taskUrl (c : Client) (id : String) : Net.Url := c.url (tasksPath ++ [id.toList])

/-- A request without a body. -/
def bare (method : Method) (url : Net.Url) : Call := ⟨method, url, [], none⟩

/-- A request with a JSON body. -/
def withBody (method : Method) (url : Net.Url) (json : List Char) : Call :=
  ⟨method, url, [("content-type", "application/json")], some (String.ofList json)⟩

/-- Asks whether the server is well. -/
def health (c : Client) : Call := bare .get (c.url ["health".toList])

/-- The parameters of a list request; those that say nothing are left out. -/
def listPairs (q : Query) : List (List Char × List Char) :=
  (if 0 < q.limit then [("limit".toList, intDigits q.limit.toInt)] else [])
    ++ (if 0 < q.offset then [("offset".toList, intDigits q.offset.toInt)] else [])
    ++ (match q.filter.completed with
      | some done => [("completed".toList, Json.writeBool done)]
      | none => [])
    ++ (match q.filter.normalized.assignee with
      | some name => [("assignee".toList, name.toList)]
      | none => [])

/-- Parameters appended to a query. A query that stays empty is none. -/
def appendPairs (query : Option (List Char)) (pairs : List (List Char × List Char)) :
    Option (List Char) :=
  let joined := pairs.foldl
    (fun query (name, value) =>
      query ++ (if query.isEmpty then [] else ['&']) ++ formPair name value)
    (query.getD [])
  if joined.isEmpty then none else some joined

/-- Asks for a page of tasks. -/
def list (c : Client) (q : Query) : Call :=
  let u := c.url tasksPath
  bare .get { u with query := appendPairs u.query (listPairs q) }

/-- Asks for one task. -/
def get (c : Client) (id : String) : Call := bare .get (c.taskUrl id)

/-- Asks to create a task. -/
def create (c : Client) (r : CreateRequest) : Call := withBody .post (c.url tasksPath) r.toJson

/-- Asks to update a task. -/
def update (c : Client) (id : String) (r : UpdateRequest) : Call :=
  withBody .put (c.taskUrl id) r.toJson

/-- Asks to delete a task. -/
def delete (c : Client) (id : String) : Call := bare .delete (c.taskUrl id)

/-- The message in the body of an error, or the body. -/
def errorMessage (body : String) : String :=
  ((Json.Value.parse? body.toList).bind fun v => (v.member? "error").bind Json.Value.string?).getD
    body

/-- Refuses a response with another status than the one expected. -/
def checkStatus (r : Response) (expected : Nat) : Except ClientError Unit :=
  if r.status = expected then .ok ()
  else if r.status = 404 then .error .notFound
  else if r.status = 400 then .error (.badRequest (errorMessage r.body))
  else .error (.http r.status r.body)

/-- The value in a body. -/
def readBody {α : Type} (read : Json.Reader α) (body : String) : Except ClientError α :=
  (read.decode (body.toList.map .char)).mapError fun e => .deserialization e.message

/-- The value in a response with the status expected. -/
def readResponse {α : Type} (read : Json.Reader α) (expected : Nat) (r : Response) :
    Except ClientError α := do
  checkStatus r expected
  readBody read r.body

/-- Whether the server is well. -/
def readHealth (r : Response) : Except ClientError Unit := do
  let v ← readResponse Json.Value.reader 200 r
  if (v.member? "status").bind Json.Value.string? = some "ok" then .ok ()
  else .error (.http r.status r.body)

/-- The page that was asked for. -/
def readList : Response → Except ClientError Page := readResponse Page.reader 200

/-- The task that was asked for. -/
def readGet : Response → Except ClientError Task := readResponse Task.reader 200

/-- The task that was created. -/
def readCreate : Response → Except ClientError Task := readResponse Task.reader 201

/-- The task that was updated. -/
def readUpdate : Response → Except ClientError Task := readResponse Task.reader 200

/-- Whether the task was deleted. -/
def readDelete (r : Response) : Except ClientError Unit := checkStatus r 204

end Client

end TaskBoard
