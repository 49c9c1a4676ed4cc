import TaskBoard.Json.Reader
import TaskBoard.Json.Writer
import TaskBoard.Task.Query
import TaskBoard.Task.Request

/-!
# Tasks on the wire

How tasks, pages and request bodies are written as JSON, and read back. A member of a request
that says nothing is left out; in an update request `null` empties a field. Tasks and pages have
all their members, with `null` for none.
-/

namespace TaskBoard

open Json

/-- An instant as a JSON string. -/
def Instant.toJson (t : Instant) : List Char := writeString t.text

namespace Task

/-- A task as JSON. -/
def toJson (t : Task) : List Char :=
  writeObject [
    ("id", writeString t.id),
    ("title", writeString t.title),
    ("description", writeOption writeString t.description),
    ("assignee", writeOption writeString t.assignee),
    ("completed", writeBool t.completed),
    ("due_date", writeOption Instant.toJson t.dueDate),
    ("created_at", t.createdAt.toJson),
    ("updated_at", t.updatedAt.toJson)]

/-- A list of tasks as JSON. -/
def listToJson (ts : List Task) : List Char := writeArray (ts.map toJson)

/-- The members of a task that have been read. -/
structure Parts where
  id : Option String := none
  title : Option String := none
  description : Option (Option String) := none
  assignee : Option (Option String) := none
  completed : Option Bool := none
  dueDate : Option (Option Instant) := none
  createdAt : Option Instant := none
  updatedAt : Option Instant := none

/-- The task of its members. Those that may be null may also be missing. -/
def Parts.toTask (p : Parts) : Except String Task :=
  match p.id, p.title, p.completed, p.createdAt, p.updatedAt with
  | none, _, _, _, _ => .error "id"
  | _, none, _, _, _ => .error "title"
  | _, _, none, _, _ => .error "completed"
  | _, _, _, none, _ => .error "created_at"
  | _, _, _, _, none => .error "updated_at"
  | some id, some title, some completed, some createdAt, some updatedAt =>
    .ok { id, title, completed, createdAt, updatedAt
          description := p.description.join
          assignee := p.assignee.join
          dueDate := p.dueDate.join }

/-- How a task is read. -/
def record : Record Parts Task where
  name := "Task"
  members := [
    .of "id" readString (·.id) (fun p v => { p with id := some v }) false,
    .of "title" readString (·.title) (fun p v => { p with title := some v }) false,
    .of "description" (readOption readString) (·.description)
      (fun p v => { p with description := some v }) false,
    .of "assignee" (readOption readString) (·.assignee)
      (fun p v => { p with assignee := some v }) false,
    .of "completed" readBool (·.completed) (fun p v => { p with completed := some v }) false,
    .of "due_date" (readOption readInstant) (·.dueDate)
      (fun p v => { p with dueDate := some v }) false,
    .of "created_at" readInstant (·.createdAt) (fun p v => { p with createdAt := some v }) false,
    .of "updated_at" readInstant (·.updatedAt) (fun p v => { p with updatedAt := some v }) false]
  start := {}
  finish := Parts.toTask

/-- Reads a task. -/
def reader : Reader Task := record.read

/-- Reads a list of tasks. -/
def listReader : Reader (List Task) := readList reader

end Task

namespace Page

/-- A page as JSON. -/
def toJson (p : Page) : List Char :=
  writeObject [
    ("items", Task.listToJson p.items),
    ("limit", writeInt64 p.limit),
    ("offset", writeInt64 p.offset),
    ("total", writeInt64 p.total)]

/-- The members of a page that have been read. -/
structure Parts where
  items : Option (List Task) := none
  limit : Option Int64 := none
  offset : Option Int64 := none
  total : Option Int64 := none

/-- The page of its members. -/
def Parts.toPage (p : Parts) : Except String Page :=
  match p.items, p.limit, p.offset, p.total with
  | none, _, _, _ => .error "items"
  | _, none, _, _ => .error "limit"
  | _, _, none, _ => .error "offset"
  | _, _, _, none => .error "total"
  | some items, some limit, some offset, some total => .ok { items, limit, offset, total }

/-- How a page is read. -/
def record : Record Parts Page where
  name := "TaskPage"
  members := [
    .of "items" Task.listReader (·.items) (fun p v => { p with items := some v }) false,
    .of "limit" readInt64 (·.limit) (fun p v => { p with limit := some v }) false,
    .of "offset" readInt64 (·.offset) (fun p v => { p with offset := some v }) false,
    .of "total" readInt64 (·.total) (fun p v => { p with total := some v }) false]
  start := {}
  finish := Parts.toPage

/-- Reads a page. -/
def reader : Reader Page := record.read

end Page

/-- A member with a value, or nothing. -/
def optionalMember {α : Type} (name : String) (write : α → List Char) :
    Option α → List (String × List Char)
  | none => []
  | some value => [(name, write value)]

/-- A member with a value or null, or nothing if the field is kept. -/
def changeMember {α : Type} (name : String) (write : α → List Char) :
    Change α → List (String × List Char)
  | .keep => []
  | .clear => [(name, writeOption write none)]
  | .set value => [(name, write value)]

/-- A change of its own, in which "keep" cannot be told from "clear". -/
def Change.toJson {α : Type} (write : α → List Char) : Change α → List Char
  | .keep | .clear => writeOption write none
  | .set value => write value

/-- Reads a change: null empties the field. -/
def Change.reader {α : Type} (read : Reader α) : Reader (Change α) := fun ts =>
  (readOption read ts).map fun (value, ts) => (Change.ofOption value, ts)

namespace CreateRequest

/-- A create request as JSON. -/
def toJson (r : CreateRequest) : List Char :=
  writeObject <|
    [("title", writeString r.title)]
    ++ optionalMember "description" writeString r.description
    ++ optionalMember "assignee" writeString r.assignee
    ++ optionalMember "due_date" Instant.toJson r.dueDate

/-- The members of a create request that have been read. -/
structure Parts where
  title : Option String := none
  description : Option (Option String) := none
  assignee : Option (Option String) := none
  dueDate : Option (Option Instant) := none

/-- The request of its members; only the title has to be there. -/
def Parts.toRequest (p : Parts) : Except String CreateRequest :=
  match p.title with
  | none => .error "title"
  | some title =>
    .ok { title
          description := p.description.join
          assignee := p.assignee.join
          dueDate := p.dueDate.join }

/-- How a create request is read. -/
def record : Record Parts CreateRequest where
  name := "CreateTaskRequest"
  members := [
    .of "title" readString (·.title) (fun p v => { p with title := some v }) false,
    .of "description" (readOption readString) (·.description)
      (fun p v => { p with description := some v }) true,
    .of "assignee" (readOption readString) (·.assignee)
      (fun p v => { p with assignee := some v }) true,
    .of "due_date" (readOption readInstant) (·.dueDate)
      (fun p v => { p with dueDate := some v }) true]
  start := {}
  finish := Parts.toRequest

/-- Reads a create request. -/
def reader : Reader CreateRequest := record.read

end CreateRequest

namespace UpdateRequest

/-- An update request as JSON. -/
def toJson (r : UpdateRequest) : List Char :=
  writeObject <|
    optionalMember "title" writeString r.title
    ++ changeMember "description" writeString r.description
    ++ changeMember "assignee" writeString r.assignee
    ++ optionalMember "completed" writeBool r.completed
    ++ changeMember "due_date" Instant.toJson r.dueDate

/-- The members of an update request that have been read. -/
structure Parts where
  title : Option (Option String) := none
  description : Option (Change String) := none
  assignee : Option (Change String) := none
  completed : Option (Option Bool) := none
  dueDate : Option (Change Instant) := none

/-- The request of its members; a change that is not there keeps its field. -/
def Parts.toRequest (p : Parts) : UpdateRequest where
  title := p.title.join
  description := p.description.getD .keep
  assignee := p.assignee.getD .keep
  completed := p.completed.join
  dueDate := p.dueDate.getD .keep

/-- How an update request is read. -/
def record : Record Parts UpdateRequest where
  name := "UpdateTaskRequest"
  members := [
    .of "title" (readOption readString) (·.title) (fun p v => { p with title := some v }) true,
    .of "description" (Change.reader readString) (·.description)
      (fun p v => { p with description := some v }) true,
    .of "assignee" (Change.reader readString) (·.assignee)
      (fun p v => { p with assignee := some v }) true,
    .of "completed" (readOption readBool) (·.completed)
      (fun p v => { p with completed := some v }) true,
    .of "due_date" (Change.reader readInstant) (·.dueDate)
      (fun p v => { p with dueDate := some v }) true]
  start := {}
  finish p := .ok p.toRequest

/-- Reads an update request. -/
def reader : Reader UpdateRequest := record.read

end UpdateRequest

end TaskBoard
