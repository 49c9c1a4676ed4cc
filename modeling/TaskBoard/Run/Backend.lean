import TaskBoard.Cache.Remote
import TaskBoard.Run.World
import TaskBoard.Service
import TaskBoard.Store.Database

/-!
# Running over servers

A backend is what a deployed service runs on: its store, in memory or in a database, and a server
for its cached lists. Here every call is answered before the next one is made.
-/

namespace TaskBoard.Run

/-- A store, and a server for cached lists. -/
structure Backend where
  /-- Whether the store is the table or the database. -/
  inDatabase : Bool := false
  table : Table := .empty
  database : Sql.DbWire
  cache : Remote.CacheWire
  gauge : Int64 := 0
  /-- The time to the microsecond. -/
  now : Instant
  /-- How many ids have been generated. -/
  ids : Nat := 0
  /-- The ids to generate. -/
  idOf : Nat → String

namespace Backend

/-- Performs a store call. -/
def performStore (call : StoreCall) (b : Backend) : call.Reply × Backend :=
  let ids := if World.takesId call then b.ids + 1 else b.ids
  if b.inDatabase then
    let (reply, database) := Sql.perform b.now (b.idOf b.ids) call b.database
    (reply, { b with database, ids })
  else
    let (reply, table) := Table.perform b.now (b.idOf b.ids) call b.table
    (reply, { b with table, ids })

/-- Performs a cache call. -/
def performCache (call : CacheCall) (b : Backend) : call.Reply × Backend :=
  let (reply, cache) := Remote.perform call b.cache
  (reply, { b with cache })

/-- The value of an operation and the backend after it. -/
def run {α : Type} : Operation α → Backend → α × Backend
  | .done value, b => (value, b)
  | .store call next, b =>
    let (reply, b) := b.performStore call
    run (next reply) b
  | .cache _ call next, b =>
    let (reply, b) := b.performCache call
    run (next reply) b
  | .gauge change next, b => run next { b with gauge := change.apply b.gauge }

/-- The value of an activity and the backend after it. The count comes after the page. -/
def runActivity {α : Type} : Activity α → Backend → α × Backend
  | .single op, b => run op b
  | .pair page filter combine, b =>
    match run page b with
    | (.error e, b) => (combine (.error e), b)
    | (.ok tasks, b) =>
      let (total, b) := b.performStore (.countFiltered filter)
      (combine (total.map fun total => (tasks, total)), b)

end Backend

end TaskBoard.Run
