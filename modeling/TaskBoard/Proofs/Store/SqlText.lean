import TaskBoard.Store.Database

/-!
# Reading statements

The text of a statement is read back word by word. The statements of the task store are read as what
they were written from, so it is the same to a database whether it is sent one or the other.

* `Statement.read?`: the statement that a text says, if it says one;
* `Statement.read?_text_command`: the statements of the task store are read back.
-/

namespace TaskBoard.Sql

open Text

namespace Statement

/-- The words of a text. Blanks are between words; brackets and commas are words of their own. -/
def words (text : String) : List String :=
  let ended (word : List Char) (out : List String) : List String :=
    if word.isEmpty then out else String.ofList word.reverse :: out
  let (word, out) := text.toList.foldl
    (fun (word, out) c =>
      if c = ' ' then ([], ended word out)
      else if c ∈ ['(', ')', ','] then ([], String.ofList [c] :: ended word out)
      else (c :: word, out))
    ([], [])
  (ended word out).reverse

/-- The column with a name. -/
def readColumn? : List String → Option Column
  | [word] => Column.all.find? fun c => c.name == word
  | _ => none

/-- The number of a parameter. -/
def readMark? : List String → Option Nat
  | [word] =>
    match word.toList with
    | '$' :: digits => readNat? digits
    | _ => none
  | _ => none

/-- A column that equals or is set to a parameter. -/
def readEquation? : List String → Option Place
  | [column, "=", mark] => do return ⟨← readColumn? [column], ← readMark? [mark]⟩
  | _ => none

/-- A column in descending order. -/
def readDescending? : List String → Option Column
  | [column, "DESC"] => readColumn? [column]
  | _ => none

/-- What stands between words. -/
def readAll? {α : Type} (read : List String → Option α) (between : String) (ws : List String) :
    Option (List α) :=
  (ws.splitOn between).mapM read

/-- The order and the stretch at the end of a text. -/
def readPaging? : List String → Option (Option Paging)
  | [] => some none
  | "ORDER" :: "BY" :: ws =>
    match ws.span (· != "LIMIT") with
    | (order, ["LIMIT", limit, "OFFSET", offset]) => do
      return some ⟨← readAll? readDescending? "," order, ← readMark? [limit], ← readMark? [offset]⟩
    | _ => none
  | _ => none

/-- The conditions of a statement and what follows them. -/
def readWhere? : List String → Option (List Place × List String)
  | "WHERE" :: ws =>
    let (conditions, rest) := ws.span (· != "ORDER")
    (readAll? readEquation? "AND" conditions).map fun conditions => (conditions, rest)
  | ws => some ([], ws)

/-- The statement that a text says, if it says one. -/
def read? (text : String) : Option Statement :=
  match words text with
  | "INSERT" :: "INTO" :: "tasks" :: "(" :: ws =>
    match ws.span (· != ")") with
    | (columns, ")" :: "VALUES" :: "(" :: ws) =>
      match ws.span (· != ")") with
      | (marks, [")"]) => do
        let columns ← readAll? readColumn? "," columns
        let marks ← readAll? readMark? "," marks
        if columns.length = marks.length then return .insert (columns.zipWith Place.mk marks)
        else none
      | _ => none
    | _ => none
  | "SELECT" :: "COUNT" :: "(" :: "*" :: ")" :: "FROM" :: "tasks" :: ws =>
    match readWhere? ws with
    | some (conditions, []) => some (.count conditions)
    | _ => none
  | "SELECT" :: ws =>
    match ws.span (· != "FROM") with
    | (columns, "FROM" :: "tasks" :: ws) => do
      let columns ← readAll? readColumn? "," columns
      let (conditions, ws) ← readWhere? ws
      return .select columns conditions (← readPaging? ws)
    | _ => none
  | "UPDATE" :: "tasks" :: "SET" :: ws =>
    match ws.span (· != "WHERE") with
    | (values, "WHERE" :: key) => do
      return .update (← readAll? readEquation? "," values) (← readEquation? key)
    | _ => none
  | "DELETE" :: "FROM" :: "tasks" :: "WHERE" :: key => (readEquation? key).map .delete
  | _ => none

/-- The columns that filters restrict. -/
def restricted : List (List Column) := [[], [.completed], [.assignee], [.completed, .assignee]]

theorem restrictions_mem (shape : Filter.Shape) :
    (restrictions shape).map (·.1) ∈ restricted := by
  cases shape <;> simp [restrictions, restricted]

/-- The statement for a list of tasks. -/
def selectRestricted (columns : List Column) : Statement :=
  .select Column.all (places columns 1)
    (some ⟨[.createdAt, .id], columns.length + 1, columns.length + 2⟩)

/-- The statements of the task store are read back. -/
theorem read?_text_command (now : Instant) (freshId : String) (call : StoreCall) :
    read? (command now freshId call).statement.text
      = some (command now freshId call).statement := by
  have hcount : ∀ columns ∈ restricted, read? (Statement.count (places columns 1)).text
      = some (.count (places columns 1)) := by decide +kernel
  cases call with
  | create draft =>
    have hinsert : read? (Statement.insert (places Column.all 1)).text
        = some (.insert (places Column.all 1)) := by decide +kernel
    exact hinsert
  | get id =>
    have hselect : read? (Statement.select Column.all [⟨.id, 1⟩] none).text
        = some (.select Column.all [⟨.id, 1⟩] none) := by decide +kernel
    exact hselect
  | list q =>
    have hselect : ∀ columns ∈ restricted, read? (selectRestricted columns).text
        = some (selectRestricted columns) := by decide +kernel
    have hmem := restrictions_mem q.normalized.filter.shape
    have hstatement : (command now freshId (.list q)).statement
        = selectRestricted ((restrictions q.normalized.filter.shape).map (·.1)) := by
      simp only [command, selectRestricted, List.length_map]
    rw [hstatement]
    exact hselect _ hmem
  | update task =>
    have hupdate : read? (Statement.update (places
          [.title, .description, .assignee, .completed, .dueDate, .updatedAt] 1) ⟨.id, 7⟩).text
        = some (.update (places
          [.title, .description, .assignee, .completed, .dueDate, .updatedAt] 1) ⟨.id, 7⟩) := by
      decide +kernel
    exact hupdate
  | delete id =>
    have hdelete : read? (Statement.delete ⟨.id, 1⟩).text = some (.delete ⟨.id, 1⟩) := by
      decide +kernel
    exact hdelete
  | count => exact hcount _ (restrictions_mem _)
  | countFiltered f => exact hcount _ (restrictions_mem f.shape)

end Statement

end TaskBoard.Sql
