import TaskBoard.Store.Call
import TaskBoard.Text.Decimal

/-!
# SQL statements

The statements that a database of tasks is sent, as values. A statement names columns and numbered
places for its parameters; `text` writes it in SQL.
-/

namespace TaskBoard.Sql

open Text

/-- The columns of the table of tasks. -/
inductive Column where
  | id
  | title
  | description
  | assignee
  | completed
  | dueDate
  | createdAt
  | updatedAt
deriving DecidableEq, Repr

/-- The name of a column. -/
def Column.name : Column → String
  | id => "id"
  | title => "title"
  | description => "description"
  | assignee => "assignee"
  | completed => "completed"
  | dueDate => "due_date"
  | createdAt => "created_at"
  | updatedAt => "updated_at"

/-- All columns, in the order in which they are read and written. -/
def Column.all : List Column :=
  [id, title, description, assignee, completed, dueDate, createdAt, updatedAt]

/-- A parameter, or a value in a row. -/
inductive Cell where
  | null
  | text (s : String)
  | bool (b : Bool)
  | instant (t : Instant)
  | integer (n : Int64)
deriving DecidableEq, Repr

/-- A column and the number of the parameter that it is set to or compared with. -/
structure Place where
  column : Column
  parameter : Nat
deriving DecidableEq, Repr

/-- The order and the stretch of the rows selected. -/
structure Paging where
  /-- The columns to order by, greatest first. -/
  order : List Column
  /-- The parameter with the number of rows. -/
  limit : Nat
  /-- The parameter with the number of rows to pass over. -/
  offset : Nat
deriving DecidableEq, Repr

/-- A statement. -/
inductive Statement where
  /-- Makes the table, its indexes and its trigger, unless they exist. -/
  | createSchema
  | insert (values : List Place)
  | select (columns : List Column) (conditions : List Place) (paging : Option Paging)
  | count (conditions : List Place)
  | update (values : List Place) (key : Place)
  | delete (key : Place)
deriving DecidableEq, Repr

namespace Statement

/-- Texts with a text between them. -/
def joined (between : String) (parts : List String) : String := between.intercalate parts

/-- The mark of a parameter. -/
def mark (n : Nat) : String := "$" ++ natText n

/-- A column that equals or is set to a parameter. -/
def equation (p : Place) : String := p.column.name ++ " = " ++ mark p.parameter

/-- The conditions of a statement. -/
def whereText : List Place → String
  | [] => ""
  | ps => " WHERE " ++ joined " AND " (ps.map equation)

/-- Order and stretch. -/
def pagingText : Option Paging → String
  | none => ""
  | some p =>
    " ORDER BY " ++ joined ", " (p.order.map fun c => c.name ++ " DESC")
      ++ " LIMIT " ++ mark p.limit ++ " OFFSET " ++ mark p.offset

/-- The definition of the table. An update sets `updated_at` to the later of the present and the
creation. -/
def schemaText : String :=
  joined " " [
    "CREATE TABLE IF NOT EXISTS tasks (",
    "id TEXT PRIMARY KEY,",
    "title TEXT NOT NULL,",
    "description TEXT,",
    "assignee TEXT,",
    "completed BOOLEAN NOT NULL DEFAULT FALSE,",
    "due_date TIMESTAMPTZ,",
    "created_at TIMESTAMPTZ NOT NULL DEFAULT now(),",
    "updated_at TIMESTAMPTZ NOT NULL DEFAULT now() );",
    "CREATE INDEX IF NOT EXISTS idx_tasks_completed ON tasks (completed);",
    "CREATE INDEX IF NOT EXISTS idx_tasks_created_at ON tasks (created_at DESC);",
    "CREATE OR REPLACE FUNCTION trg_set_updated_at() RETURNS TRIGGER AS $$ BEGIN",
    "NEW.updated_at = GREATEST(now(), NEW.created_at); RETURN NEW; END; $$ LANGUAGE plpgsql;",
    "DO $$ BEGIN IF NOT EXISTS (",
    "SELECT 1 FROM pg_trigger WHERE tgname = 'trg_tasks_set_updated_at' ) THEN",
    "CREATE TRIGGER trg_tasks_set_updated_at BEFORE UPDATE ON tasks FOR EACH ROW",
    "EXECUTE FUNCTION trg_set_updated_at(); END IF; END; $$;"]

/-- The SQL of a statement. -/
def text : Statement → String
  | createSchema => schemaText
  | insert values =>
    "INSERT INTO tasks (" ++ joined ", " (values.map fun p => p.column.name) ++ ") VALUES ("
      ++ joined ", " (values.map fun p => mark p.parameter) ++ ")"
  | select columns conditions paging =>
    "SELECT " ++ joined ", " (columns.map Column.name) ++ " FROM tasks"
      ++ whereText conditions ++ pagingText paging
  | count conditions => "SELECT COUNT(*) FROM tasks" ++ whereText conditions
  | update values key =>
    "UPDATE tasks SET " ++ joined ", " (values.map equation) ++ whereText [key]
  | delete key => "DELETE FROM tasks" ++ whereText [key]

end Statement

end TaskBoard.Sql
