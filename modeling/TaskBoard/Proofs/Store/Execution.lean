import TaskBoard.Proofs.Store.SqlText
import TaskBoard.Text.Utf8

/-!
# What a database does with statements

A database keeps rows of cells and answers the statements of the task store over them, as
PostgreSQL does: the id is the primary key, `=` is true of no null, rows are ordered column by
column with texts compared byte by byte, a negative limit or offset is refused, and before an update
the trigger of the table sets the time of the update. Texts without NUL and instants of the range of
`TIMESTAMPTZ` are what its cells are for.

* `Statement.execute`: what a statement with parameters is answered, and the rows after it;
* `Command.execute`: the same for the text of a statement, as it is sent.
-/

namespace TaskBoard.Sql

open Text

/-- A row of the table of tasks. -/
abbrev Row := Column → Cell

/-! ## Cells -/

/-- What may stand in a column. -/
def Column.admits : Column → Cell → Bool
  | .id, .text _ | .title, .text _ => true
  | .description, .text _ | .description, .null => true
  | .assignee, .text _ | .assignee, .null => true
  | .completed, .bool _ => true
  | .dueDate, .instant _ | .dueDate, .null => true
  | .createdAt, .instant _ | .updatedAt, .instant _ => true
  | _, _ => false

/-- What stands in a column of a new row that is given no value for it. -/
def Column.default (now : Instant) : Column → Cell
  | .completed => .bool false
  | .createdAt | .updatedAt => .instant now
  | _ => .null

/-- Whether `=` is true of two cells. It is not if one of them is null. -/
def Cell.equals (a b : Cell) : Bool := decide (a ≠ .null ∧ a = b)

/-- Whether `a` comes before `b`, or together with it, in descending order. Nulls come first, and
texts are compared byte by byte. -/
def Cell.descending : (a b : Cell) → Bool
  | .null, _ => true
  | .text s, .text t => decide (utf8Encode t.toList ≤ utf8Encode s.toList)
  | .bool b, .bool c => c ≤ b
  | .instant t, .instant u => u.notAfter t
  | .integer m, .integer n => n ≤ m
  | _, _ => false

/-- Whether row `a` comes before row `b`, or together with it, in descending order of the columns:
the first of them in which the rows differ decides. -/
def Row.descending (a b : Row) : List Column → Bool
  | [] => true
  | c :: cs => if a c = b c then Row.descending a b cs else (a c).descending (b c)

/-! ## Statements -/

/-- The parameter with a number. The first one is `$1`. -/
def parameter? (ps : List Cell) (n : Nat) : Option Cell := if n = 0 then none else ps[n - 1]?

/-- The cells of places. -/
def given? (ps : List Cell) (places : List Place) : Option (List (Column × Cell)) :=
  places.mapM fun p => (parameter? ps p.parameter).map fun cell => (p.column, cell)

/-- Whether a row has the cells that it is asked for. -/
def Row.satisfies (r : Row) (conditions : List (Column × Cell)) : Bool :=
  conditions.all fun (c, cell) => (r c).equals cell

/-- A row with some cells replaced. -/
def Row.set (r : Row) (values : List (Column × Cell)) : Row :=
  fun c => (values.lookup c).getD (r c)

/-- Whether the cells of a row may stand in their columns. -/
def Row.admitted (r : Row) : Bool := Column.all.all fun c => c.admits (r c)

/-- The later of two cells with instants. -/
def Cell.greatest : Cell → Cell → Cell
  | .instant t, .instant u => .instant (t.latest u)
  | .null, cell => cell
  | cell, _ => cell

/-- What the trigger of the table makes of a row before it is updated. -/
def Row.triggered (now : Instant) (r : Row) : Row :=
  r.set [(.updatedAt, (Cell.instant now).greatest (r .createdAt))]

/-- A number of rows from a parameter; null and missing ones are not asked for here. -/
def rowCount? : Option Cell → Option Nat
  | some (.integer n) => if n < 0 then none else some n.toInt.toNat
  | _ => none

/-- The stretch of rows that is asked for, in order. -/
def stretch? (ps : List Cell) (rows : List Row) : Option Paging → Option (List Row)
  | none => some rows
  | some p =>
    match rowCount? (parameter? ps p.limit), rowCount? (parameter? ps p.offset) with
    | some limit, some offset =>
      some (((rows.mergeSort fun a b => a.descending b p.order).drop offset).take limit)
    | _, _ => none

/-- The greatest number of a parameter in a statement. -/
def Statement.arity : Statement → Nat
  | .createSchema => 0
  | .insert values => highest values
  | .select _ conditions paging =>
    max (highest conditions) (paging.elim 0 fun p => max p.limit p.offset)
  | .count conditions => highest conditions
  | .update values key => highest (key :: values)
  | .delete key => highest [key]
where
  /-- The greatest number of a parameter in places. -/
  highest (places : List Place) : Nat := places.foldr (fun p n => max p.parameter n) 0

/-- The answer to a statement with its parameters, and the rows after it. A statement that is
refused changes nothing. -/
def Statement.execute (now : Instant) (s : Statement) (ps : List Cell) (rows : List Row) :
    DbAnswer × List Row :=
  let refused (message : String) : DbAnswer × List Row := (.failed message, rows)
  let misfit := refused "a cell does not fit its column"
  let missing := refused "there are not as many parameters as the statement needs"
  if ps.length ≠ s.arity then missing
  else
    match s with
    | .createSchema => (.done, rows)
    | .insert values =>
      match given? ps values with
      | none => missing
      | some values =>
        let row := Row.set (Column.default now) values
        if !row.admitted then misfit
        else if rows.any fun r => (r .id).equals (row .id) then refused "the id is not new"
        else (.affected 1, row :: rows)
    | .select columns conditions paging =>
      match given? ps conditions with
      | none => missing
      | some conditions =>
        match stretch? ps (rows.filter fun r => r.satisfies conditions) paging with
        | none => refused "limit and offset must not be negative"
        | some found => (.rows (found.map fun r => columns.map r), rows)
    | .count conditions =>
      match given? ps conditions with
      | none => missing
      | some conditions =>
        let n := (rows.filter fun r => r.satisfies conditions).length
        (.rows [[.integer (Int64.ofNat (min n 9223372036854775807))]], rows)
    | .update values key =>
      match given? ps values, given? ps [key] with
      | some values, some key =>
        let new (r : Row) : Row := (r.set values).triggered now
        let chosen := rows.filter fun r => r.satisfies key
        if chosen.all fun r => (new r).admitted then
          (.affected chosen.length, rows.map fun r => if r.satisfies key then new r else r)
        else misfit
      | _, _ => missing
    | .delete key =>
      match given? ps [key] with
      | none => missing
      | some key =>
        (.affected (rows.filter fun r => r.satisfies key).length,
          rows.filter fun r => !r.satisfies key)

/-- The answer to a command as it is sent, and the rows after it. A text that is no statement is
refused. -/
def Command.execute (now : Instant) (c : Command) (rows : List Row) : DbAnswer × List Row :=
  match Statement.read? c.statement.text with
  | some s => s.execute now c.parameters rows
  | none => (.failed "syntax error", rows)

end TaskBoard.Sql
