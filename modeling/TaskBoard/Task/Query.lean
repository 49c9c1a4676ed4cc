import TaskBoard.Task.Basic

/-!
# Asking for tasks

A `Filter` picks tasks by completion and assignee; a `Query` asks for a stretch of the tasks that
a filter picks; a `Page` answers one. A query has a normal form: a positive limit, an offset that
is not negative and no empty assignee.

* `Filter.accepts_normalized`: a filter picks what its normal form picks.
* `Query.normalized_normalized`: a normal form is its own normal form.
-/

namespace TaskBoard

/-- Which tasks to list. An empty assignee restricts nothing. -/
structure Filter where
  completed : Option Bool := none
  assignee : Option String := none
deriving DecidableEq, Repr

/-- The four kinds of restriction. -/
inductive Filter.Shape where
  | all
  | completed (done : Bool)
  | assignee (name : String)
  | completedAndAssignee (done : Bool) (name : String)
deriving DecidableEq, Repr

namespace Filter

/-- The kind of restriction to a completion and an assignee. -/
def Shape.of : Option Bool → Option String → Shape
  | none, none => all
  | some done, none => completed done
  | none, some name => assignee name
  | some done, some name => completedAndAssignee done name

/-- Picks the tasks that are done, or those that are not. -/
def byCompletion (done : Bool) : Filter := { completed := some done }

/-- Picks the tasks of an assignee. -/
def byAssignee (name : String) : Filter := { assignee := some name }

/-- The filter with a restriction to the tasks that are done, or to those that are not. -/
def withCompletion (f : Filter) (done : Bool) : Filter := { f with completed := some done }

/-- The filter without an empty assignee. -/
def normalized (f : Filter) : Filter where
  completed := f.completed
  assignee := f.assignee.filter fun name => !name.isEmpty

/-- What the filter restricts. -/
def shape (f : Filter) : Shape := .of f.completed f.normalized.assignee

/-- Whether the filter picks the task. -/
def accepts (f : Filter) (t : Task) : Bool :=
  match f.shape with
  | .all => true
  | .completed done => t.completed == done
  | .assignee name => t.assignee == some name
  | .completedAndAssignee done name => t.completed == done && t.assignee == some name

@[simp] theorem normalized_normalized (f : Filter) : f.normalized.normalized = f.normalized := by
  obtain ⟨completed, assignee⟩ := f
  cases assignee with
  | none => rfl
  | some name => by_cases h : name.isEmpty <;> simp [normalized, Option.filter, h]

@[simp] theorem shape_normalized (f : Filter) : f.normalized.shape = f.shape := by
  rw [shape, normalized_normalized]
  rfl

@[simp] theorem accepts_normalized (f : Filter) (t : Task) :
    f.normalized.accepts t = f.accepts t := by
  rw [accepts, shape_normalized]
  rfl

end Filter

/-- A request for a stretch of the tasks that a filter picks. -/
structure Query where
  limit : Int64
  offset : Int64
  filter : Filter
deriving DecidableEq, Repr

namespace Query

/-- The limit of a query that names none. -/
def defaultLimit : Int64 := 100

/-- The query for the first page of all tasks. -/
def default : Query := ⟨defaultLimit, 0, {}⟩

/-- The query as the store understands it. -/
def normalized (q : Query) : Query where
  limit := if q.limit ≤ 0 then defaultLimit else q.limit
  offset := if q.offset ≤ 0 then 0 else q.offset
  filter := q.filter.normalized

@[simp] theorem normalized_normalized (q : Query) : q.normalized.normalized = q.normalized := by
  have hlimit : ¬ defaultLimit ≤ 0 := by decide
  simp only [normalized, Filter.normalized_normalized]
  split <;> split <;> simp_all

end Query

/-- A stretch of tasks and how many there are in all. -/
structure Page where
  items : List Task
  limit : Int64
  offset : Int64
  total : Int64
deriving DecidableEq, Repr

end TaskBoard
