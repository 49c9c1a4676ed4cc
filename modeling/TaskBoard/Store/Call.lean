import TaskBoard.Task.Query

/-!
# Store calls

What can be asked of a store of tasks. Every store answers every call, with a value of the type
that belongs to the call or with an error.
-/

namespace TaskBoard

/-- A call of a store. -/
inductive StoreCall where
  | create (draft : Draft)
  | get (id : String)
  | list (query : Query)
  /-- Replaces what can be changed of the task with this id. -/
  | update (task : Task)
  | delete (id : String)
  | count
  | countFiltered (filter : Filter)
deriving DecidableEq, Repr

namespace StoreCall

/-- The type of the answer to a call. -/
def Answer : StoreCall → Type
  | create _ => Task
  | get _ => Task
  | list _ => List Task
  | update _ => Unit
  | delete _ => Bool
  | count => Int64
  | countFiltered _ => Int64

/-- What a store answers to a call. -/
abbrev Reply (call : StoreCall) : Type := Except TaskError call.Answer

/-- The kinds of calls. -/
inductive Kind where
  | create
  | get
  | list
  | update
  | delete
  | count
  | countFiltered
deriving DecidableEq, Repr

/-- The kind of a call. -/
def kind : StoreCall → Kind
  | create _ => .create
  | get _ => .get
  | list _ => .list
  | update _ => .update
  | delete _ => .delete
  | count => .count
  | countFiltered _ => .countFiltered

end StoreCall

end TaskBoard
