import TaskBoard.Cache.Aside
import TaskBoard.Proofs.Json.Reading

/-!
# Tasks read back

A task written as JSON is read as the task that it was, with every text, every instant and every
field left empty, and so is a list of tasks.

* `reads_task`: the tokens of a task are read as the task;
* `decode_listToJson`: the text of a list of tasks is read as the list;
* `Caching.decode?_encode`: a list that was cached is found in the cache as it was.
-/

namespace TaskBoard

open Json

theorem Instant.lexes_toJson (t : Instant) :
    Lexes t.toJson [.string (some t.text.toList)] :=
  lexes_writeString t.text

namespace Task

/-- The token of a text. -/
def textToken (s : String) : Token := .string (some s.toList)

/-- The token of an instant. -/
def instantToken (t : Instant) : Token := textToken t.text

/-- The members of a task as JSON: name, text and tokens. -/
def writtenMembers (t : Task) : List (String × List Char × List Token) := [
  ("id", writeString t.id, [textToken t.id]),
  ("title", writeString t.title, [textToken t.title]),
  ("description", writeOption writeString t.description, [t.description.elim .null textToken]),
  ("assignee", writeOption writeString t.assignee, [t.assignee.elim .null textToken]),
  ("completed", writeBool t.completed, [.bool t.completed]),
  ("due_date", writeOption Instant.toJson t.dueDate, [t.dueDate.elim .null instantToken]),
  ("created_at", t.createdAt.toJson, [instantToken t.createdAt]),
  ("updated_at", t.updatedAt.toJson, [instantToken t.updatedAt])]

/-- The tokens of a task. -/
def taskTokens (t : Task) : List Token :=
  objectTokens (t.writtenMembers.map fun m => (m.1, m.2.2))

theorem lexes_toJson (t : Task) : Lexes t.toJson t.taskTokens := by
  have hmembers : ∀ m ∈ t.writtenMembers, Lexes m.2.1 m.2.2 := by
    simp only [writtenMembers, List.forall_mem_cons, List.not_mem_nil, false_imp_iff,
      implies_true, and_true]
    refine ⟨lexes_writeString _, lexes_writeString _, ?_, ?_, lexes_writeBool _, ?_, ?_, ?_⟩
    · exact lexes_writeOption textToken lexes_writeString _
    · exact lexes_writeOption textToken lexes_writeString _
    · exact lexes_writeOption instantToken Instant.lexes_toJson _
    · exact Instant.lexes_toJson _
    · exact Instant.lexes_toJson _
  exact lexes_writeObject fun m hm => (hmembers m hm).before

/-- The members of a task gather all its fields. -/
theorem gathers_task (t : Task) :
    record.Gathers (t.writtenMembers.map fun m => (m.1, m.2.2)) {}
      { id := some t.id
        title := some t.title
        description := some t.description
        assignee := some t.assignee
        completed := some t.completed
        dueDate := some t.dueDate
        createdAt := some t.createdAt
        updatedAt := some t.updatedAt } := by
  have htext := reads_option textToken reads_string (by simp [textToken])
  have hinstant := reads_option instantToken reads_instant
    (by simp [instantToken, textToken])
  simp only [writtenMembers, List.map_cons, List.map_nil]
  refine .cons (Record.readMember_eq rfl rfl (reads_string t.id)) ?_
  refine .cons (Record.readMember_eq rfl rfl (reads_string t.title)) ?_
  refine .cons (Record.readMember_eq rfl rfl (htext t.description)) ?_
  refine .cons (Record.readMember_eq rfl rfl (htext t.assignee)) ?_
  refine .cons (Record.readMember_eq rfl rfl (reads_bool t.completed)) ?_
  refine .cons (Record.readMember_eq rfl rfl (hinstant t.dueDate)) ?_
  refine .cons (Record.readMember_eq rfl rfl (reads_instant t.createdAt)) ?_
  refine .cons (Record.readMember_eq rfl rfl (reads_instant t.updatedAt)) ?_
  exact .nil _

theorem reads_task (t : Task) : Reads reader t.taskTokens t :=
  Record.reads_object t.gathers_task rfl

/-- The tokens of a list of tasks. -/
def listTokens (tasks : List Task) : List Token := arrayTokens (tasks.map taskTokens)

theorem lexes_listToJson (tasks : List Task) : Lexes (listToJson tasks) (listTokens tasks) :=
  lexes_writeArray fun t _ => (lexes_toJson t).before

theorem reads_listTokens (tasks : List Task) : Reads listReader (listTokens tasks) tasks :=
  reads_list (fun t _ => reads_task t) fun _ _ => ⟨.openObject, _, rfl, by decide⟩

/-- The text of a list of tasks is read as the list. -/
theorem decode_listToJson (tasks : List Task) :
    listReader.decode ((listToJson tasks).map .char) = .ok tasks :=
  (reads_listTokens tasks).decode_eq (lexes_listToJson tasks)

end Task

/-- A list that was cached is found in the cache as it was. -/
theorem Caching.decode?_encode (tasks : List Task) : decode? (encode tasks) = some tasks := by
  simp [decode?, encode, Task.decode_listToJson, Except.toOption]

end TaskBoard
