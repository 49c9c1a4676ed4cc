import TaskBoard.Task.Basic

/-!
# Requests to create and to update

What a caller may say in a request body, and what it means: an empty optional text of a create
request is no value; in an update request an empty description empties the field and an empty
assignee says nothing.
-/

namespace TaskBoard

/-- The body of a request to create a task. -/
structure CreateRequest where
  title : String
  description : Option String := none
  assignee : Option String := none
  dueDate : Option Instant := none
deriving DecidableEq, Repr

/-- The draft that a request asks for. -/
def CreateRequest.toDraft (r : CreateRequest) : Draft where
  title := r.title
  description := r.description.filter fun text => !text.isEmpty
  assignee := r.assignee.filter fun name => !name.isEmpty
  dueDate := r.dueDate.map Instant.toMicros

/-- The body of a request to update a task. -/
structure UpdateRequest where
  title : Option String := none
  description : Change String := .keep
  assignee : Change String := .keep
  completed : Option Bool := none
  dueDate : Change Instant := .keep
deriving DecidableEq, Repr

/-- The patch that a request asks for. -/
def UpdateRequest.toPatch (r : UpdateRequest) (id : String) : Patch where
  id := id
  title := r.title
  description := r.description.emptyAsClear
  assignee := r.assignee.emptyAsKeep
  completed := r.completed
  dueDate := r.dueDate.map Instant.toMicros

end TaskBoard
