import TaskBoard.Http.Fault
import TaskBoard.Task.Query
import TaskBoard.Text.Ascii
import TaskBoard.Text.Blank

/-!
# List parameters

The parameters of a list request as texts. Numbers that cannot be read count as missing; a truth
value that cannot be read is a fault.
-/

namespace TaskBoard.Http

open Text

/-- The parameters of a list request. -/
structure ListParams where
  limit : Option String := none
  offset : Option String := none
  completed : Option String := none
  assignee : Option String := none
deriving DecidableEq, Repr

namespace ListParams

/-- An integer of 64 bits with an optional sign and blanks around it; zero if it cannot be read. -/
def number (value : Option String) : Int64 :=
  match value.bind fun v => readSigned? (trim v.toList) with
  | some n => if -9223372036854775808 ≤ n ∧ n ≤ 9223372036854775807 then Int64.ofInt n else 0
  | none => 0

/-- A truth value by one of its names, in any ASCII case. -/
def truth? (value : List Char) : Option Bool :=
  let name := String.ofList (value.map lowerAscii)
  if name ∈ ["true", "1", "t"] then some true
  else if name ∈ ["false", "0", "f"] then some false
  else none

/-- The completion asked for, if any. -/
def completion (value : Option String) : Except Fault (Option Bool) :=
  match value.map fun v => trim v.toList with
  | none | some [] => .ok none
  | some v =>
    match truth? v with
    | some done => .ok (some done)
    | none => .error (.badRequest ("invalid completed value: " ++ String.ofList v))

/-- The query that the parameters ask for. -/
def toQuery (p : ListParams) : Except Fault Query := do
  let completed ← completion p.completed
  return Query.normalized ⟨number p.limit, number p.offset, ⟨completed, p.assignee⟩⟩

end ListParams

end TaskBoard.Http
