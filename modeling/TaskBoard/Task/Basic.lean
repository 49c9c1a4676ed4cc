import TaskBoard.Instant.Print
import TaskBoard.Task.Change
import TaskBoard.Task.Error
import TaskBoard.Text.Blank

/-!
# Tasks

The stored record `Task`, the `Draft` that a store turns into a task, and the `Patch` that changes
one. A store assigns the id (if the draft has none) and both times.
-/

namespace TaskBoard

/-- A stored task. -/
structure Task where
  id : String
  title : String
  description : Option String
  assignee : Option String
  completed : Bool
  dueDate : Option Instant
  createdAt : Instant
  updatedAt : Instant
deriving DecidableEq, Repr

/-- A task to be created. -/
structure Draft where
  /-- The store chooses an id if there is none. -/
  id : Option String := none
  title : String := ""
  description : Option String := none
  assignee : Option String := none
  completed : Bool := false
  dueDate : Option Instant := none
deriving DecidableEq, Repr

namespace Draft

/-- A draft with a title and nothing else. -/
def titled (title : String) : Draft := { title }

/-- The draft with a description. -/
def withDescription (d : Draft) (text : String) : Draft := { d with description := some text }

/-- The draft with an assignee. -/
def withAssignee (d : Draft) (name : String) : Draft := { d with assignee := some name }

/-- The draft with a due date, to the microsecond. -/
def withDueDate (d : Draft) (due : Instant) : Draft := { d with dueDate := some due.toMicros }

/-- The task that a store makes of a draft at the time `now`. -/
def toTask (d : Draft) (id : String) (now : Instant) : Task where
  id := id
  title := d.title
  description := d.description
  assignee := d.assignee
  completed := d.completed
  dueDate := d.dueDate
  createdAt := now
  updatedAt := now

end Draft

/-- A title without the blanks around it; a title of nothing but blanks is refused. -/
def normalizeTitle (raw : String) : Except TaskError String :=
  let title := Text.trimmed raw
  if title.isEmpty then .error (.invalidInput "title must not be empty") else .ok title

/-- A partial update of the task with this id. -/
structure Patch where
  id : String
  /-- An empty title says nothing. -/
  title : Option String := none
  description : Change String := .keep
  assignee : Change String := .keep
  completed : Option Bool := none
  dueDate : Change Instant := .keep
deriving DecidableEq, Repr

namespace Patch

/-- The patch that changes nothing. -/
def empty (id : String) : Patch := { id }

/-- The title that the patch gives a task with the title `old`. -/
def newTitle (p : Patch) (old : String) : Except TaskError String :=
  match p.title with
  | some raw => if raw.isEmpty then .ok old else normalizeTitle raw
  | none => .ok old

/-- The task after the patch; refused as a whole if the new title is blank. -/
def merge (p : Patch) (t : Task) : Except TaskError Task := do
  let title ← p.newTitle t.title
  return { t with
    title
    description := p.description.apply t.description
    assignee := p.assignee.apply t.assignee
    completed := p.completed.getD t.completed
    dueDate := (p.dueDate.map Instant.toMicros).apply t.dueDate }

end Patch

end TaskBoard
