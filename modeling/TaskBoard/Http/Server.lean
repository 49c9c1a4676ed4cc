import TaskBoard.Http.Body
import TaskBoard.Http.Route
import TaskBoard.Metrics.Exposition
import TaskBoard.Run.Pair

/-!
# The server

A request is routed, runs an activity of the service under a deadline, and is answered. Around
this, every request but those for options is counted under its route's template, and every answer
has the headers that let any origin read it.
-/

namespace TaskBoard.Http

open Text

/-- The headers of an answer with a JSON body. -/
def jsonHeaders : Headers := [("content-type", "application/json")]

/-- An answer without headers or body. -/
def bare (status : Nat) : Response := ⟨status, [], ""⟩

/-- An answer with a JSON body. -/
def withJson (status : Nat) (json : List Char) : Response :=
  ⟨status, jsonHeaders, String.ofList json⟩

/-- The answer to a faulty request. -/
def Fault.toResponse (f : Fault) : Response :=
  withJson f.status (Json.writeObject [("error", Json.writeString f.message)])

/-- The answer with a result or to an error. -/
def answer {α : Type} (good : α → Response) : Except TaskError α → Response
  | .ok a => good a
  | .error e => (Fault.ofTaskError e).toResponse

/-- The answer with a page; the total is in a header too. -/
def pageResponse (p : Page) : Response :=
  { withJson 200 p.toJson with
    headers := ("x-total-count", intText p.total.toInt) :: jsonHeaders }

/-- The answer to a path whose id is no text. -/
def badIdResponse : Response :=
  ⟨400, [("content-type", "text/plain; charset=utf-8")], "Invalid URL: Invalid UTF-8 in `id`"⟩

/-- The answer with the metrics text. -/
def metricsResponse (text : String) : Response :=
  ⟨200, [("content-type", "text/plain; version=0.0.4; charset=utf-8")], text⟩

/-- The answer to a method that a route does not know. -/
def methodResponse (route : Route) : Response := ⟨405, [("allow", route.allowed)], ""⟩

/-- An activity that does nothing but answer. -/
def only (r : Response) : Activity Response := .single (.done r)

/-- An activity for the id of a segment. -/
def withId (segment : List Char) (act : String → Activity Response) : Activity Response :=
  match Route.decodeId segment with
  | some id => act id
  | none => only badIdResponse

/-- An activity for the value in a body. -/
def withValue {α : Type} (value : Except Fault α) (act : α → Activity Response) :
    Activity Response :=
  match value with
  | .ok a => act a
  | .error f => only f.toResponse

/-- Answers with a page of tasks. -/
def listTasks (caching : Option Caching) (query : Option (List Char)) : Activity Response :=
  withValue ((ListParams.ofQuery query).bind ListParams.toQuery) fun q =>
    (Service.list caching q).map (answer pageResponse)

/-- Creates a task. -/
def createTask (caching : Option Caching) (headers : Headers) (body : List UInt8) :
    Activity Response :=
  withValue (readBody CreateRequest.reader headers body) fun r =>
    .single ((Service.create caching r.toDraft).map (answer fun t => withJson 201 t.toJson))

/-- Answers with a task. -/
def getTask (caching : Option Caching) (segment : List Char) : Activity Response :=
  withId segment fun id =>
    .single ((Service.get caching id).map (answer fun t => withJson 200 t.toJson))

/-- Updates a task. -/
def updateTask (caching : Option Caching) (segment : List Char) (headers : Headers)
    (body : List UInt8) : Activity Response :=
  withId segment fun id =>
    withValue (readBody UpdateRequest.reader headers body) fun r =>
      .single ((Service.update caching (r.toPatch id)).map (answer fun t => withJson 200 t.toJson))

/-- Deletes a task. -/
def deleteTask (caching : Option Caching) (segment : List Char) : Activity Response :=
  withId segment fun id =>
    .single ((Service.delete caching id).map (answer fun _ => bare 204))

/-- Whether a method reads: it runs as `GET`, and `HEAD` is answered without a body. -/
def isRead (method : String) : Bool := method == "GET" || method == "HEAD"

/-- A request whose method and target can be used. -/
structure Incoming where
  method : String
  target : Target
  headers : Headers
  body : List UInt8
deriving DecidableEq

/-- Whether a header value may be sent: no controls but the tab. -/
def isHeaderValue (value : String) : Bool :=
  value.toList.all fun c => (0x20 ≤ c.toNat && c.toNat != 0x7F) || c == '\t'

/-- Whether a text is a name as methods and headers have it. -/
def isName (s : String) : Bool := !s.isEmpty && s.toList.all MediaType.isToken

/-- The request of a message, if its request line and headers can be used. -/
def Incoming.ofRequest? (r : Request) : Option Incoming :=
  match Target.read r.uri with
  | some target =>
    if isName r.method && r.headers.all fun (k, v) => isName k && isHeaderValue v then
      some ⟨r.method, target, r.headers, r.body⟩
    else none
  | none => none

/-- What a request makes the server do. -/
def activity (caching : Option Caching) (tally : Metrics.Tally) (gauge : Int64)
    (route : Option Route) (r : Incoming) : Activity Response :=
  match route with
  | none => only (bare 404)
  | some .health =>
    if isRead r.method then
      only (withJson 200 (Json.writeObject [("status", Json.writeString "ok")]))
    else only (methodResponse .health)
  | some .metrics =>
    if isRead r.method then only (metricsResponse (tally.render gauge))
    else only (methodResponse .metrics)
  | some .tasks =>
    if isRead r.method then listTasks caching r.target.query
    else if r.method = "POST" then createTask caching r.headers r.body
    else only (methodResponse .tasks)
  | some (.task segment) =>
    if isRead r.method then getTask caching segment
    else if r.method = "PUT" then updateTask caching segment r.headers r.body
    else if r.method = "DELETE" then deleteTask caching segment
    else only (methodResponse (.task segment))

/-- The headers that let any origin read an answer. -/
def sharingHeaders : Headers := [
  ("access-control-allow-origin", "*"),
  ("vary", "origin, access-control-request-method, access-control-request-headers")]

/-- An answer that any origin may read. -/
def shared (r : Response) : Response := { r with headers := r.headers ++ sharingHeaders }

/-- The answer to a request for options, which reaches no route. -/
def optionsResponse (route : Option Route) : Response where
  status := 200
  headers :=
    [("access-control-allow-methods", "*"), ("access-control-allow-headers", "*")]
      ++ route.elim [] fun route => [("allow", route.allowed)]
  body := ""

/-- How a server is set up. -/
structure Server where
  caching : Option Caching
  /-- Milliseconds. -/
  requestTimeout : Nat
deriving DecidableEq, Repr

/-- What a server acts on. -/
structure State where
  world : Run.World := {}
  tally : Metrics.Tally := {}

/-- The answer to a request and the state after it. No clock of the world measures latency, which
counts as zero. -/
def Server.serve (server : Server) (c : Run.Conditions) (r : Incoming) (s : State) :
    Response × State :=
  let route := Route.ofPath r.target.path
  if r.method = "OPTIONS" then (shared (optionsResponse route), s)
  else
    let act := activity server.caching s.tally s.world.gauge route r
    let deadline := s.world.timer + server.requestTimeout
    let (result, world) := Run.runActivity c (some deadline) act s.world
    let response := result.getD (bare 408)
    let response := if r.method = "HEAD" then { response with body := "" } else response
    let tally := s.tally.observe r.method (Route.label route) response.status 0
    (shared response, { world, tally })

end TaskBoard.Http
