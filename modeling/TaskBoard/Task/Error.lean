/-!
# What can go wrong with a task

The three causes a store or the service reports, and the wording of each.
-/

namespace TaskBoard

/-- Why an operation on tasks failed. -/
inductive TaskError where
  /-- The caller's data is unacceptable; the text says why. -/
  | invalidInput (reason : String)
  /-- There is no task with this id. -/
  | notFound (id : String)
  /-- The store failed; the text is the store's own. -/
  | persistence (detail : String)
deriving DecidableEq, Repr

/-- The wording of an error, for logs and operators. -/
def TaskError.message : TaskError → String
  | invalidInput reason => "invalid input: " ++ reason
  | notFound id => "task not found: " ++ id
  | persistence detail => "persistence error: " ++ detail

end TaskBoard
