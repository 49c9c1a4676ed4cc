import TaskBoard.Cache.Aside

/-!
# The task service

The operations that callers ask for: they check titles, merge partial updates onto the stored task
and keep the gauge in step with creates and deletes.
-/

namespace TaskBoard

/-- What a request does: one operation, or the list and the count of a page side by side. -/
inductive Activity (α : Type) where
  | single (op : Operation α)
  /-- Reads a page and counts the tasks that `filter` picks; if either fails the other is dropped. -/
  | pair (page : Operation (Except TaskError (List Task))) (filter : Filter)
      (combine : Except TaskError (List Task × Int64) → α)

/-- The activity with its value replaced through `f`. -/
def Activity.map {α β : Type} (f : α → β) : Activity α → Activity β
  | single op => single (op.map f)
  | pair page filter combine => pair page filter (f ∘ combine)

namespace Service

/-- Creates a task with a trimmed title. -/
def create (caching : Option Caching) (draft : Draft) : Operation (Except TaskError Task) :=
  match normalizeTitle draft.title with
  | .error e => .done (.error e)
  | .ok title =>
    (Caching.perform caching (.create { draft with title })).bind fun
      | .error e => .done (.error e)
      | .ok task => .gauge .increment (.done (.ok task))

/-- Reads a task. -/
def get (caching : Option Caching) (id : String) : Operation (Except TaskError Task) :=
  Caching.perform caching (.get id)

/-- Loads a task, merges the patch, stores the result and reads it back. -/
def update (caching : Option Caching) (p : Patch) : Operation (Except TaskError Task) :=
  (Caching.perform caching (.get p.id)).bind fun
    | .error e => .done (.error e)
    | .ok task =>
      match p.merge task with
      | .error e => .done (.error e)
      | .ok task =>
        (Caching.perform caching (.update task)).bind fun
          | .error e => .done (.error e)
          | .ok () => Caching.perform caching (.get p.id)

/-- Deletes a task; one that is not there is an error. -/
def delete (caching : Option Caching) (id : String) : Operation (Except TaskError Unit) :=
  (Caching.perform caching (.delete id)).bind fun
    | .error e => .done (.error e)
    | .ok false => .done (.error (.notFound id))
    | .ok true => .gauge .decrement (.done (.ok ()))

/-- Counts the tasks. -/
def count (caching : Option Caching) : Operation (Except TaskError Int64) :=
  Caching.perform caching .count

/-- Sets the gauge to the number of tasks. -/
def refreshGauge (caching : Option Caching) : Operation (Except TaskError Int64) :=
  (Caching.perform caching .count).bind fun
    | .error e => .done (.error e)
    | .ok n => .gauge (.assign n) (.done (.ok n))

/-- One page and the number of tasks that its filter picks. -/
def list (caching : Option Caching) (q : Query) : Activity (Except TaskError Page) :=
  let q := q.normalized
  .pair (Caching.perform caching (.list q)) q.filter fun result =>
    result.map fun (items, total) => ⟨items, q.limit, q.offset, total⟩

end Service

end TaskBoard
