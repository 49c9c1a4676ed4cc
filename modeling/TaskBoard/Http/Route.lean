import TaskBoard.Http.Target
import TaskBoard.Text.Percent

/-!
# Routes

The places that the server answers at. A path is compared character by character, as it was
written; only the id of a task is percent-decoded, after the route has been found.
-/

namespace TaskBoard.Http

open Text

/-- A place that the server answers at. -/
inductive Route where
  | tasks
  /-- One task; the segment is as it was written. -/
  | task (segment : List Char)
  | health
  | metrics
deriving DecidableEq, Repr

namespace Route

/-- The route of a path. A task's segment is not empty. -/
def ofPath (path : List Char) : Option Route :=
  match (splitAtAll (· == '/') path).map String.ofList with
  | ["", "health"] => some health
  | ["", "metrics"] => some metrics
  | ["", "api", "v1", "tasks"] => some tasks
  | ["", "api", "v1", "tasks", segment] =>
    if segment.isEmpty then none else some (task segment.toList)
  | _ => none

/-- The template of a route, under which its requests are counted. -/
def template : Route → String
  | tasks => "/api/v1/tasks"
  | task _ => "/api/v1/tasks/\x7bid\x7d"
  | health => "/health"
  | metrics => "/metrics"

/-- The methods that a route answers to. -/
def allowed : Route → String
  | tasks => "GET,HEAD,POST"
  | task _ => "GET,HEAD,PUT,DELETE"
  | health | metrics => "GET,HEAD"

/-- The label of requests that no route matches. -/
def unmatchedLabel : String := "unmatched"

/-- The label under which the requests of a path are counted. -/
def label (route : Option Route) : String := route.elim unmatchedLabel template

/-- The id that a segment stands for, if its bytes are text. -/
def decodeId (segment : List Char) : Option String :=
  (strictText (utf8Decode (percentDecode (utf8Encode segment)))).map String.ofList

end Route

end TaskBoard.Http
