import TaskBoard.Keyed
import TaskBoard.Store.Call

/-!
# The in-memory store

Tasks by id. Lists show the newest task first, and tasks of one age by descending id, so that the
order does not depend on how the tasks are kept.
-/

namespace TaskBoard

/-- The tasks of a store, by id. -/
abbrev Table := Keyed Task

/-- Whether `a` may stand before `b` in a list: it is newer, or as new and its id is not less. -/
def Task.newestFirst (a b : Task) : Bool :=
  if a.createdAt = b.createdAt then decide (b.id ≤ a.id) else b.createdAt.notAfter a.createdAt

/-- Replaces what an update may change; the time of the update is never before the creation. -/
def Task.replaced (old new : Task) (now : Instant) : Task :=
  { old with
    title := new.title
    description := new.description
    assignee := new.assignee
    completed := new.completed
    dueDate := new.dueDate
    updatedAt := now.latest old.createdAt }

namespace Table

/-- The tasks that a filter picks, in the order of lists. -/
def matching (t : Table) (f : Filter) : List Task :=
  (t.values.filter f.accepts).mergeSort Task.newestFirst

/-- The stretch of tasks that a query asks for. -/
def list (t : Table) (q : Query) : List Task :=
  let q := q.normalized
  ((t.matching q.filter).drop q.offset.toInt.toNat).take q.limit.toInt.toNat

/-- A number of tasks; it stops at the greatest integer of 64 bits. -/
def countOf (n : Nat) : Int64 := Int64.ofNat (min n 9223372036854775807)

/-- How many tasks a filter picks. -/
def countFiltered (t : Table) (f : Filter) : Int64 := countOf (t.values.filter f.accepts).length

/-- The answer to a call and the table after it. `now` is the time to the microsecond, and
`freshId` the id of a task that comes without one. -/
def perform (now : Instant) (freshId : String) :
    (call : StoreCall) → Table → call.Reply × Table
  | .create draft, t =>
    let id := draft.id.getD freshId
    if t.contains id then (.error (.persistence ("duplicate task id: " ++ id)), t)
    else
      let task := draft.toTask id now
      (.ok task, t.insert id task)
  | .get id, t =>
    match t.get? id with
    | some task => (.ok task, t)
    | none => (.error (.notFound id), t)
  | .list q, t => (.ok (t.list q), t)
  | .update task, t =>
    match t.get? task.id with
    | some old => (.ok (), t.insert task.id (old.replaced task now))
    | none => (.error (.notFound task.id), t)
  | .delete id, t => (.ok (t.contains id), t.erase id)
  | .count, t => (.ok (t.countFiltered {}), t)
  | .countFiltered f, t => (.ok (t.countFiltered f), t)

end Table

end TaskBoard
