import TaskBoard.Task.Error

/-!
# Faults

A fault is an answer other than success: a status and a message for the client. What a store says
about its failure stays inside.
-/

namespace TaskBoard.Http

/-- A status and the message that goes with it. -/
structure Fault where
  status : Nat
  message : String
deriving DecidableEq, Repr

namespace Fault

/-- The request is at fault. -/
def badRequest (message : String) : Fault := ⟨400, message⟩

/-- The fault that a task error becomes. -/
def ofTaskError : TaskError → Fault
  | .invalidInput reason => badRequest reason
  | .notFound _ => ⟨404, "task not found"⟩
  | .persistence _ => ⟨500, "internal server error"⟩

end Fault

end TaskBoard.Http
