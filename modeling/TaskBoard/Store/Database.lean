import TaskBoard.Net.Wire
import TaskBoard.Store.Statement

/-!
# The store in a database

Each store call is one statement with parameters (`command`), and what the database answers to it
says what the store answers (`reply`).
-/

namespace TaskBoard.Sql

open Text

/-- A statement with its parameters, the first for `$1`. -/
structure Command where
  statement : Statement
  parameters : List Cell
deriving DecidableEq, Repr

/-- An answer of the database. -/
inductive DbAnswer where
  | rows (rows : List (List Cell))
  /-- How many rows have been written. -/
  | affected (n : Nat)
  | failed (message : String)
  /-- Neither rows nor a count. -/
  | done
deriving DecidableEq, Repr

/-- A text that may be missing. -/
def Cell.ofText? : Option String → Cell
  | some s => .text s
  | none => .null

/-- An instant that may be missing; databases keep microseconds. -/
def Cell.ofInstant? : Option Instant → Cell
  | some t => .instant t.toMicros
  | none => .null

/-- Columns with the parameters from the number `first` on. -/
def places (columns : List Column) (first : Nat) : List Place :=
  columns.zipIdx.map fun (c, i) => ⟨c, first + i⟩

/-- The columns that a filter restricts, and what to. -/
def restrictions : Filter.Shape → List (Column × Cell)
  | .all => []
  | .completed done => [(.completed, .bool done)]
  | .assignee name => [(.assignee, .text name)]
  | .completedAndAssignee done name => [(.completed, .bool done), (.assignee, .text name)]

/-- The cells of a new task, in the order of the columns. -/
def taskCells (t : Task) : List Cell :=
  [.text t.id, .text t.title, Cell.ofText? t.description, Cell.ofText? t.assignee,
    .bool t.completed, Cell.ofInstant? t.dueDate, .instant t.createdAt.toMicros,
    .instant t.updatedAt.toMicros]

/-- The statement of a call. `now` is the time to the microsecond, and `freshId` the id of a task
that comes without one. -/
def command (now : Instant) (freshId : String) : StoreCall → Command
  | .create draft =>
    ⟨.insert (places Column.all 1), taskCells (draft.toTask (draft.id.getD freshId) now)⟩
  | .get id => ⟨.select Column.all [⟨.id, 1⟩] none, [.text id]⟩
  | .list q =>
    let q := q.normalized
    let restricted := restrictions q.filter.shape
    let n := restricted.length
    ⟨.select Column.all (places (restricted.map (·.1)) 1)
        (some ⟨[.createdAt, .id], n + 1, n + 2⟩),
      restricted.map (·.2) ++ [.integer q.limit, .integer q.offset]⟩
  | .update t =>
    ⟨.update (places [.title, .description, .assignee, .completed, .dueDate, .updatedAt] 1) ⟨.id, 7⟩,
      [.text t.title, Cell.ofText? t.description, Cell.ofText? t.assignee, .bool t.completed,
        Cell.ofInstant? t.dueDate, .instant now, .text t.id]⟩
  | .delete id => ⟨.delete ⟨.id, 1⟩, [.text id]⟩
  | .count => counting {}
  | .countFiltered f => counting f
where
  /-- Counts the rows that a filter picks. -/
  counting (f : Filter) : Command :=
    let restricted := restrictions f.shape
    ⟨.count (places (restricted.map (·.1)) 1), restricted.map (·.2)⟩

/-- The error of a value that is null where it may not be, or of another type. -/
def badCell (column : String) : TaskError :=
  .persistence <| "error occurred while decoding column " ++ column
    ++ ": unexpected null; try decoding as an `Option`"

/-- The error of a column by its name. -/
def badColumn (c : Column) : TaskError := badCell ("\"" ++ c.name ++ "\"")

/-- A text in a row. -/
def readText (c : Column) : Cell → Except TaskError String
  | .text s => .ok s
  | _ => .error (badColumn c)

/-- A truth value in a row. -/
def readTruth (c : Column) : Cell → Except TaskError Bool
  | .bool b => .ok b
  | _ => .error (badColumn c)

/-- An instant in a row. -/
def readInstant (c : Column) : Cell → Except TaskError Instant
  | .instant t => .ok t
  | _ => .error (badColumn c)

/-- A value in a row that may be missing. -/
def readOptional {α : Type} (read : Cell → Except TaskError α) : Cell → Except TaskError (Option α)
  | .null => .ok none
  | cell => (read cell).map some

/-- The task in a row. The first column that cannot be read is the error. -/
def readTask (row : List Cell) : Except TaskError Task := do
  let cell (i : Nat) : Cell := row.getD i .null
  let id ← readText .id (cell 0)
  let title ← readText .title (cell 1)
  let description ← readOptional (readText .description) (cell 2)
  let assignee ← readOptional (readText .assignee) (cell 3)
  let completed ← readTruth .completed (cell 4)
  let dueDate ← readOptional (readInstant .dueDate) (cell 5)
  let createdAt ← readInstant .createdAt (cell 6)
  let updatedAt ← readInstant .updatedAt (cell 7)
  return { id, title, description, assignee, completed, dueDate, createdAt, updatedAt }

/-- The rows of an answer. -/
def DbAnswer.rowsOf : DbAnswer → Except TaskError (List (List Cell))
  | failed message =>
    .error (.persistence ("error returned from database: " ++ message))
  | rows rs => .ok rs
  | _ => .ok []

/-- The number of rows written, by an answer. -/
def DbAnswer.writtenOf : DbAnswer → Except TaskError Nat
  | failed message =>
    .error (.persistence ("error returned from database: " ++ message))
  | affected n => .ok n
  | _ => .ok 0

/-- The number in the first row of an answer. -/
def readCount (a : DbAnswer) : Except TaskError Int64 := do
  match ← a.rowsOf with
  | [] =>
    throw (.persistence "no rows returned by a query that expected to return at least one row")
  | row :: _ =>
    match row with
    | .integer n :: _ => return n
    | _ => throw (badCell "0")

/-- What the store answers to a call when the database answers its statement. -/
def reply (now : Instant) (freshId : String) :
    (call : StoreCall) → DbAnswer → call.Reply
  | .create draft, a => do
    let _ ← a.writtenOf
    return draft.toTask (draft.id.getD freshId) now
  | .get id, a => do
    match ← a.rowsOf with
    | [] => throw (.notFound id)
    | row :: _ => readTask row
  | .list _, a => do (← a.rowsOf).mapM readTask
  | .update t, a => do if (← a.writtenOf) = 0 then throw (.notFound t.id)
  | .delete _, a => do
    let n ← a.writtenOf
    return decide (0 < n)
  | .count, a => readCount a
  | .countFiltered _, a => readCount a

/-- A wire to the database. -/
abbrev DbWire := Net.Wire Command DbAnswer

/-- The error of a command without an answer. -/
def unanswered : Net.Refusal → TaskError
  | .unreachable reason => .persistence ("error communicating with database: " ++ reason)
  | .silent => .persistence "pool timed out while waiting for an open connection"
  | .closed => .persistence "error communicating with database: connection closed"

/-- Makes the connection to the database. -/
def connect (w : DbWire) : Except TaskError Unit := w.connect.mapError unanswered

/-- The answer of the database to a command. -/
def send (c : Command) (w : DbWire) : Except TaskError DbAnswer × DbWire :=
  let (answer, w) := w.send c
  (answer.mapError unanswered, w)

/-- Makes the table. -/
def ensureSchema (w : DbWire) : Except TaskError Unit × DbWire :=
  let (answer, w) := send ⟨.createSchema, []⟩ w
  (answer.bind fun a => a.rowsOf.map fun _ => (), w)

/-- Performs a store call over a wire. -/
def perform (now : Instant) (freshId : String) (call : StoreCall) (w : DbWire) :
    call.Reply × DbWire :=
  let (answer, w) := send (command now freshId call) w
  (answer.bind (reply now freshId call), w)

end TaskBoard.Sql
