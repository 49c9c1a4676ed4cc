import TaskBoard.Proofs.Keyed
import TaskBoard.Proofs.Run.Drive
import TaskBoard.Proofs.Store.Execution
import TaskBoard.Proofs.Store.Listing
import TaskBoard.Proofs.Store.Table
import TaskBoard.Proofs.Text.Utf8

/-!
# The two stores are the same store

The store in a database and the store in memory answer every call alike, and hold the same tasks
after it, if they hold the same tasks before it.

* `readTask_rowOf`: a task is read back from its row;
* `satisfies_restrictions`, `descending_rowOf`: the database picks and orders rows as the store in
  memory picks and orders tasks;
* `same_call`: one call;
* `same_store`: any number of calls.
-/

namespace TaskBoard.Sql

open Run Text

/-! ## Tasks as rows -/

/-- The row of a task. -/
def rowOf (t : Task) : Row
  | .id => .text t.id
  | .title => .text t.title
  | .description => Cell.ofText? t.description
  | .assignee => Cell.ofText? t.assignee
  | .completed => .bool t.completed
  | .dueDate => Cell.ofInstant? t.dueDate
  | .createdAt => .instant t.createdAt.toMicros
  | .updatedAt => .instant t.updatedAt.toMicros

/-- A task that a database can keep without loss. -/
structure Fits (t : Task) : Prop where
  dueDate : ∀ due, t.dueDate = some due → due.InMicros
  createdAt : t.createdAt.InMicros
  updatedAt : t.updatedAt.InMicros

/-- The due date of a call, if it has one, is one that a database can keep without loss. -/
def FitsCall : StoreCall → Prop
  | .create draft => ∀ due, draft.dueDate = some due → due.InMicros
  | .update task => ∀ due, task.dueDate = some due → due.InMicros
  | _ => True

/-- The rows are those of the tasks in the table, in any order. -/
structure Holds (rows : List Row) (table : Table) : Prop where
  rows_eq : ∃ tasks : List Task, rows = tasks.map rowOf ∧ tasks.Perm table.values
  each : Table.Each Fits table

variable {t a b : Task} {now : Instant}

theorem row_admitted (t : Task) : (rowOf t).admitted = true := by
  obtain ⟨id, title, description, assignee, completed, dueDate, createdAt, updatedAt⟩ := t
  cases description <;> cases assignee <;> cases dueDate <;> rfl

theorem readOptional_text (c : Column) (text : Option String) :
    readOptional (readText c) (Cell.ofText? text) = .ok text := by
  cases text <;> rfl

theorem readOptional_instant (c : Column) {due : Option Instant}
    (h : ∀ t, due = some t → t.InMicros) :
    readOptional (readInstant c) (Cell.ofInstant? due) = .ok due := by
  cases due with
  | none => rfl
  | some t =>
    have ht : t.toMicros = t := Instant.toMicros_eq_iff.2 (h t rfl)
    simp [Cell.ofInstant?, ht, readOptional, readInstant, Except.map]

/-- A task is read back from its row. -/
theorem readTask_rowOf (h : Fits t) : readTask (Column.all.map (rowOf t)) = .ok t := by
  have hcreated : t.createdAt.toMicros = t.createdAt := Instant.toMicros_eq_iff.2 h.createdAt
  have hupdated : t.updatedAt.toMicros = t.updatedAt := Instant.toMicros_eq_iff.2 h.updatedAt
  have hdue := readOptional_instant .dueDate h.dueDate
  simp [readTask, Column.all, rowOf, readText, readTruth, readInstant, readOptional_text, hdue,
    hcreated, hupdated, bind, Except.bind, pure, Except.pure]

theorem mapM_readTask {tasks : List Task} (h : ∀ t ∈ tasks, Fits t) :
    ((tasks.map rowOf).map fun r => Column.all.map r).mapM readTask = .ok tasks := by
  induction tasks with
  | nil => rfl
  | cons t tasks ih =>
    have hrest := ih fun u hu => h u (List.mem_cons_of_mem _ hu)
    have ht := readTask_rowOf (h t List.mem_cons_self)
    rw [List.map_cons, List.map_cons, List.mapM_cons, ht, hrest]
    rfl

/-! ### Conditions and order -/

theorem equals_text (s s' : String) : (Cell.text s).equals (.text s') = (s == s') := by
  simp [Cell.equals, Bool.beq_eq_decide_eq]

theorem equals_bool (c c' : Bool) : (Cell.bool c).equals (.bool c') = (c == c') := by
  cases c <;> cases c' <;> rfl

theorem equals_ofText? (text : Option String) (s : String) :
    (Cell.ofText? text).equals (.text s) = (text == some s) := by
  cases text with
  | none => simp [Cell.equals, Cell.ofText?]
  | some s' => simp [Cell.ofText?, equals_text]

/-- The conditions for a filter are true of the rows of the tasks that it picks. -/
theorem satisfies_restrictions (f : Filter) (t : Task) :
    (rowOf t).satisfies (restrictions f.shape) = f.accepts t := by
  unfold Filter.accepts Row.satisfies
  cases f.shape <;> simp [restrictions, rowOf, equals_bool, equals_ofText?]

theorem satisfies_id (t : Task) (id : String) :
    (rowOf t).satisfies [(.id, .text id)] = (t.id == id) := by
  simp [Row.satisfies, rowOf, equals_text]

theorem encode_le_iff (s s' : String) :
    utf8Encode s.toList ≤ utf8Encode s'.toList ↔ s ≤ s' := by
  rw [← List.not_lt, utf8Encode_lt_iff]
  exact Iff.rfl

/-- Rows are ordered as their tasks are. -/
theorem descending_rowOf (ha : Fits a) (hb : Fits b) :
    Row.descending (rowOf a) (rowOf b) [.createdAt, .id] = a.newestFirst b := by
  have hacreated : a.createdAt.toMicros = a.createdAt := Instant.toMicros_eq_iff.2 ha.createdAt
  have hbcreated : b.createdAt.toMicros = b.createdAt := Instant.toMicros_eq_iff.2 hb.createdAt
  simp only [Row.descending, rowOf, hacreated, hbcreated, Cell.instant.injEq, Cell.text.injEq,
    Cell.descending, encode_le_iff, Task.newestFirst]
  by_cases hid : a.id = b.id
  · simp [hid]
  · simp [hid]

/-! ## Statements over the rows of tasks -/

/-- The store in a database. Its clock is the one that the program reads. -/
def databaseStore : AnyStore Reading (List Row) where
  perform reading call rows :=
    let (answer, rows) := (command reading.now reading.freshId call).execute reading.now rows
    ((perform reading.now reading.freshId call { link := .up [some answer] }).1, rows)
  delay _ _ _ := 0

/-- What the store makes of the answer to its statement. -/
theorem databaseStore_perform {reading : Reading} {call : StoreCall} {rows rows' : List Row}
    {answer : DbAnswer}
    (h : (command reading.now reading.freshId call).statement.execute reading.now
      (command reading.now reading.freshId call).parameters rows = (answer, rows')) :
    databaseStore.perform reading call rows
      = (reply reading.now reading.freshId call answer, rows') := by
  have hexecute : (command reading.now reading.freshId call).execute reading.now rows
      = (answer, rows') := by
    rw [Command.execute, Statement.read?_text_command]
    exact h
  simp only [databaseStore, hexecute]
  rfl

/-- Answers are alike if they are equal but for the text of a failure of the store. -/
inductive Alike {α : Type} : Except TaskError α → Except TaskError α → Prop where
  | same (r : Except TaskError α) : Alike r r
  | persistence (detail detail' : String) :
      Alike (.error (.persistence detail)) (.error (.persistence detail'))

/-- Both stores answer a call alike and hold the same tasks after it. -/
def SameCall (reading : Reading) (call : StoreCall) (rows : List Row) (table : Table) : Prop :=
  Alike (databaseStore.perform reading call rows).1 (memoryStore.perform reading call table).1
    ∧ Holds (databaseStore.perform reading call rows).2 (memoryStore.perform reading call table).2

variable {rows : List Row} {table : Table} {tasks : List Task}

theorem filter_rows (p : Row → Bool) (q : Task → Bool) (h : ∀ t, p (rowOf t) = q t)
    (tasks : List Task) : (tasks.map rowOf).filter p = (tasks.filter q).map rowOf := by
  rw [List.filter_map]
  exact congrArg (List.map rowOf) (List.filter_congr fun t _ => h t)

/-- The tasks with an id are the one that the table has for it. -/
theorem filter_id (hown : table.OwnIds) (hperm : tasks.Perm table.values) (id : String) :
    tasks.filter (fun t => t.id == id) = (table.get? id).toList := by
  have hfilter := hperm.filter fun t => t.id == id
  rw [Keyed.values_filter_eq hown] at hfilter
  cases hget : table.get? id with
  | none =>
    rw [hget] at hfilter
    exact List.perm_nil.1 hfilter
  | some t =>
    rw [hget] at hfilter
    exact List.perm_singleton.1 hfilter

theorem Holds.ownIds (h : Holds rows table) : table.OwnIds := Table.Each.ownIds h.each

theorem Holds.fits_mem (h : Holds rows table) (hperm : tasks.Perm table.values) :
    ∀ t ∈ tasks, Fits t := by
  intro t ht
  obtain ⟨key, hget⟩ := Keyed.mem_values_iff.1 (hperm.mem_iff.1 ht)
  exact (h.each key t hget).2

theorem Holds.nodup_ids (h : Holds rows table) (hperm : tasks.Perm table.values) :
    (tasks.map Task.id).Nodup :=
  (hperm.map Task.id).nodup_iff.2 (Keyed.nodup_names h.ownIds)

/-! ### Reading -/

theorem same_get (h : Holds rows table) (reading : Reading) (id : String) :
    SameCall reading (.get id) rows table := by
  obtain ⟨tasks, rfl, hperm⟩ := h.rows_eq
  have hfilter : (tasks.map rowOf).filter (fun r => r.satisfies [(.id, .text id)])
      = (table.get? id).toList.map rowOf := by
    rw [filter_rows _ (fun t => t.id == id) (satisfies_id · id), filter_id h.ownIds hperm]
  have hexecute : (command reading.now reading.freshId (.get id)).statement.execute reading.now
      (command reading.now reading.freshId (.get id)).parameters (tasks.map rowOf)
      = (.rows (((table.get? id).toList.map rowOf).map fun r => Column.all.map r),
        tasks.map rowOf) := by
    rw [← hfilter]
    rfl
  unfold SameCall
  rw [databaseStore_perform hexecute]
  cases hget : table.get? id with
  | none =>
    simp only [memoryStore, Table.perform, hget]
    exact ⟨.same _, h⟩
  | some t =>
    have hread : reply reading.now reading.freshId (.get id) (.rows [Column.all.map (rowOf t)])
        = .ok t := readTask_rowOf (h.each id t hget).2
    simp only [memoryStore, Table.perform, hget]
    refine ⟨?_, h⟩
    rw [Option.toList_some, List.map_singleton, List.map_singleton, hread]
    exact .same _

/-- A normal query has a stretch that can be asked for. -/
theorem rowCount?_normalized (q : Query) :
    rowCount? (some (.integer q.normalized.limit)) = some q.normalized.limit.toInt.toNat
      ∧ rowCount? (some (.integer q.normalized.offset)) = some q.normalized.offset.toInt.toNat := by
  have hlimit : ¬ q.normalized.limit < 0 := by
    simp only [Query.normalized]
    split
    · decide
    · grind
  have hoffset : ¬ q.normalized.offset < 0 := by
    simp only [Query.normalized]
    split
    · decide
    · grind
  simp [rowCount?, hlimit, hoffset]

/-- Sorted rows are the rows of sorted tasks. -/
theorem mergeSort_rows (h : ∀ t ∈ tasks, Fits t) :
    (tasks.map rowOf).mergeSort (fun a b => a.descending b [.createdAt, .id])
      = (tasks.mergeSort Task.newestFirst).map rowOf := by
  symm
  refine List.map_mergeSort fun a ha b hb => ?_
  rw [descending_rowOf (h a ha) (h b hb)]

/-- The parameters of a filter are those of its conditions. -/
theorem given?_restrictions (shape : Filter.Shape) (rest : List Cell) :
    given? ((restrictions shape).map (·.2) ++ rest) (places ((restrictions shape).map (·.1)) 1)
      = some (restrictions shape) := by
  cases shape <;> rfl

/-- After the parameters of a filter come those of the stretch. -/
theorem stretch?_restrictions (shape : Filter.Shape) (limit offset : Cell) (rows : List Row)
    {m n : Nat} (hm : rowCount? (some limit) = some m) (hn : rowCount? (some offset) = some n) :
    stretch? ((restrictions shape).map (·.2) ++ [limit, offset]) rows
        (some ⟨[.createdAt, .id], (restrictions shape).length + 1, (restrictions shape).length + 2⟩)
      = some (((rows.mergeSort fun a b => a.descending b [.createdAt, .id]).drop n).take m) := by
  have hlimit : parameter? ((restrictions shape).map (·.2) ++ [limit, offset])
      ((restrictions shape).length + 1) = some limit := by
    cases shape <;> rfl
  have hoffset : parameter? ((restrictions shape).map (·.2) ++ [limit, offset])
      ((restrictions shape).length + 2) = some offset := by
    cases shape <;> rfl
  simp only [stretch?, hlimit, hoffset, hm, hn]

/-- The page of the tasks in the rows. -/
def page (q : Query) (tasks : List Task) : List Task :=
  (((tasks.filter q.normalized.filter.accepts).mergeSort Task.newestFirst).drop
    q.normalized.offset.toInt.toNat).take q.normalized.limit.toInt.toNat

theorem mem_of_mem_page {q : Query} (h : t ∈ page q tasks) : t ∈ tasks := by
  have hsorted := List.mem_of_mem_drop (List.mem_of_mem_take h)
  exact List.mem_of_mem_filter ((List.mergeSort_perm _ _).mem_iff.1 hsorted)

/-- A select is answered with the page of the tasks in the rows. -/
theorem execute_list (h : ∀ t ∈ tasks, Fits t) (q : Query) (now : Instant) (freshId : String) :
    (command now freshId (.list q)).statement.execute now
        (command now freshId (.list q)).parameters (tasks.map rowOf)
      = (.rows (((page q tasks).map rowOf).map fun r => Column.all.map r), tasks.map rowOf) := by
  obtain ⟨hlimit, hoffset⟩ := rowCount?_normalized q
  have harity : (command now freshId (.list q)).parameters.length
      = (command now freshId (.list q)).statement.arity := by
    simp only [command]
    cases q.normalized.filter.shape <;> rfl
  have hfilter := filter_rows (fun r => r.satisfies (restrictions q.normalized.filter.shape)) _
    (satisfies_restrictions q.normalized.filter) tasks
  have hfits : ∀ t ∈ tasks.filter q.normalized.filter.accepts, Fits t :=
    fun t ht => h t (List.mem_of_mem_filter ht)
  have hfound := stretch?_restrictions q.normalized.filter.shape _ _
    ((tasks.filter q.normalized.filter.accepts).map rowOf) hlimit hoffset
  rw [mergeSort_rows hfits, ← List.map_drop, ← List.map_take, ← page] at hfound
  simp only [command] at harity ⊢
  simp only [Statement.execute, harity, ne_eq, not_true_eq_false, if_false,
    given?_restrictions, hfilter, hfound]

theorem same_list (h : Holds rows table) (reading : Reading) (q : Query) :
    SameCall reading (.list q) rows table := by
  obtain ⟨tasks, rfl, hperm⟩ := h.rows_eq
  have hfits := h.fits_mem hperm
  unfold SameCall
  rw [databaseStore_perform (execute_list hfits q _ _)]
  have hnodup : ((tasks.filter q.normalized.filter.accepts).map Task.id).Nodup :=
    (h.nodup_ids hperm).sublist (List.filter_sublist.map _)
  -- here the order of the rows is forgotten
  have hpage : page q tasks = table.list q := by
    unfold page Table.list Table.matching
    rw [mergeSort_eq_of_perm (hperm.filter _) hnodup]
  have hread : reply reading.now reading.freshId (.list q)
      (.rows (((page q tasks).map rowOf).map fun r => Column.all.map r)) = .ok (page q tasks) :=
    mapM_readTask fun t ht => hfits t (mem_of_mem_page ht)
  rw [hread, hpage]
  exact ⟨.same _, h⟩

/-- A count is answered with the number of tasks that the filter picks. -/
theorem execute_count (f : Filter) (now : Instant) (tasks : List Task) :
    (command.counting f).statement.execute now (command.counting f).parameters (tasks.map rowOf)
      = (.rows [[.integer (Table.countOf (tasks.filter f.accepts).length)]], tasks.map rowOf) := by
  have harity : (command.counting f).parameters.length = (command.counting f).statement.arity := by
    simp only [command.counting]
    cases f.shape <;> rfl
  have hgiven := given?_restrictions f.shape []
  rw [List.append_nil] at hgiven
  have hfilter := filter_rows (fun r => r.satisfies (restrictions f.shape)) _
    (satisfies_restrictions f) tasks
  simp only [command.counting] at harity ⊢
  simp only [Statement.execute, harity, ne_eq, not_true_eq_false, if_false, hgiven, hfilter,
    List.length_map]
  rfl

theorem same_countFiltered (h : Holds rows table) (reading : Reading) (f : Filter) :
    SameCall reading (.countFiltered f) rows table := by
  obtain ⟨tasks, rfl, hperm⟩ := h.rows_eq
  have hlength : (tasks.filter f.accepts).length = (table.values.filter f.accepts).length :=
    (hperm.filter _).length_eq
  unfold SameCall
  rw [databaseStore_perform (execute_count f _ tasks), hlength]
  exact ⟨.same _, h⟩

theorem same_count (h : Holds rows table) (reading : Reading) : SameCall reading .count rows table :=
  same_countFiltered h reading {}

/-! ### Writing -/

theorem same_delete (h : Holds rows table) (reading : Reading) (id : String) :
    SameCall reading (.delete id) rows table := by
  obtain ⟨tasks, rfl, hperm⟩ := h.rows_eq
  have hfound : (tasks.map rowOf).filter (fun r => r.satisfies [(.id, .text id)])
      = (table.get? id).toList.map rowOf := by
    rw [filter_rows _ (fun t => t.id == id) (satisfies_id · id), filter_id h.ownIds hperm]
  have hleft : (tasks.map rowOf).filter (fun r => !r.satisfies [(.id, .text id)])
      = (tasks.filter fun t => t.id != id).map rowOf :=
    filter_rows _ _ (fun t => congrArg Bool.not (satisfies_id t id)) tasks
  have hexecute : (command reading.now reading.freshId (.delete id)).statement.execute reading.now
      (command reading.now reading.freshId (.delete id)).parameters (tasks.map rowOf)
      = (.affected (table.get? id).toList.length, (tasks.filter fun t => t.id != id).map rowOf) := by
    rw [← hleft, ← List.length_map rowOf, ← hfound]
    rfl
  unfold SameCall
  rw [databaseStore_perform hexecute]
  constructor
  · have hcontains : decide (0 < (table.get? id).toList.length) = table.contains id := by
      unfold Keyed.contains
      cases table.get? id <;> rfl
    have hreply : reply reading.now reading.freshId (.delete id)
        (.affected (table.get? id).toList.length) = .ok (table.contains id) :=
      congrArg Except.ok hcontains
    rw [hreply]
    exact .same _
  · refine ⟨⟨_, rfl, ?_⟩, Table.Each.erase h.each id⟩
    show (tasks.filter fun t => t.id != id).Perm (table.erase id).values
    rw [Keyed.values_erase h.ownIds]
    exact hperm.filter _

/-- What an insert makes of a new task. -/
theorem execute_insert (t : Task) (now : Instant) (rows : List Row) :
    (Statement.insert (places Column.all 1)).execute now (taskCells t) rows
      = if rows.any fun r => (r .id).equals (.text t.id) then (.failed "the id is not new", rows)
        else (.affected 1, rowOf t :: rows) := by
  have hgiven : given? (taskCells t) (places Column.all 1)
      = some (Column.all.zip (taskCells t)) := rfl
  have hrow : Row.set (Column.default now) (Column.all.zip (taskCells t)) = rowOf t := by
    funext c
    cases c <;> rfl
  have harity : (taskCells t).length = (Statement.insert (places Column.all 1)).arity := rfl
  simp only [Statement.execute, harity, ne_eq, not_true_eq_false, if_false, hgiven, hrow,
    row_admitted, Bool.not_true, Bool.false_eq_true]
  rfl

theorem any_id (h : Holds (tasks.map rowOf) table) (hperm : tasks.Perm table.values) (id : String) :
    (tasks.map rowOf).any (fun r => (r .id).equals (.text id)) = table.contains id := by
  have hfilter := filter_id h.ownIds hperm id
  have hany : (tasks.map rowOf).any (fun r => (r .id).equals (.text id))
      = tasks.any fun t => t.id == id := by
    rw [List.any_map]
    exact congrArg tasks.any (funext fun t => equals_text t.id id)
  rw [hany, Keyed.contains, Bool.eq_iff_iff, List.any_eq_true, Option.isSome_iff_exists]
  constructor
  · rintro ⟨t, ht, hid⟩
    have hmem : t ∈ (table.get? id).toList := by
      rw [← hfilter]
      exact List.mem_filter.2 ⟨ht, hid⟩
    exact ⟨t, Option.mem_toList.1 hmem⟩
  · rintro ⟨t, ht⟩
    have hmem : t ∈ tasks.filter fun t => t.id == id := by
      rw [hfilter, ht]
      exact List.mem_singleton_self t
    obtain ⟨htasks, hid⟩ := List.mem_filter.1 hmem
    exact ⟨t, htasks, hid⟩

theorem same_create (h : Holds rows table) (reading : Reading) {draft : Draft}
    (hdraft : FitsCall (.create draft)) : SameCall reading (.create draft) rows table := by
  obtain ⟨tasks, rfl, hperm⟩ := h.rows_eq
  have hexecute := execute_insert (draft.toTask (draft.id.getD reading.freshId) reading.now)
    reading.now (tasks.map rowOf)
  have hany := any_id h hperm (draft.id.getD reading.freshId)
  simp only [Draft.toTask, hany] at hexecute
  unfold SameCall
  cases hdup : table.contains (draft.id.getD reading.freshId) with
  | true =>
    -- both refuse the id, each in its own words
    rw [hdup, if_pos rfl] at hexecute
    rw [databaseStore_perform hexecute]
    simp only [memoryStore, Table.perform, hdup, if_true]
    exact ⟨.persistence _ _, h⟩
  | false =>
    -- the new row and the new task come first
    rw [hdup, if_neg Bool.false_ne_true] at hexecute
    rw [databaseStore_perform hexecute]
    simp only [memoryStore, Table.perform, hdup, Bool.false_eq_true, if_false]
    have hfits : Fits (draft.toTask (draft.id.getD reading.freshId) reading.now) :=
      ⟨hdraft, Instant.inMicros_toMicros _, Instant.inMicros_toMicros _⟩
    refine ⟨.same _, ⟨_ :: tasks, rfl, ?_⟩, Table.Each.insert h.each hfits⟩
    rw [Keyed.values_insert, Keyed.erase_of_contains_eq_false hdup]
    exact hperm.cons _

/-- The cells that an update sets. -/
def newCells (b : Task) (now : Instant) : List (Column × Cell) :=
  [(.title, .text b.title), (.description, Cell.ofText? b.description),
    (.assignee, Cell.ofText? b.assignee), (.completed, .bool b.completed),
    (.dueDate, Cell.ofInstant? b.dueDate), (.updatedAt, .instant now)]

/-- What an update with the trigger makes of the row of a task. -/
theorem row_updated (hold : Fits a) (hnow : now.InMicros) (b : Task) :
    ((rowOf a).set (newCells b now)).triggered now = rowOf (a.replaced b now) := by
  have hcreated : a.createdAt.toMicros = a.createdAt := Instant.toMicros_eq_iff.2 hold.createdAt
  have hlatest : (now.latest a.createdAt).toMicros = now.latest a.createdAt :=
    Instant.toMicros_eq_iff.2 (hnow.latest hold.createdAt)
  funext c
  cases c with
  | updatedAt =>
    show Cell.instant (now.latest a.createdAt.toMicros)
      = .instant (now.latest a.createdAt).toMicros
    rw [hcreated, hlatest]
  | _ => rfl

/-- A task as an update of `b` leaves it: only the task with the id of `b` is replaced. -/
def updated (b : Task) (now : Instant) (t : Task) : Task :=
  if t.id == b.id then t.replaced b now else t

/-- What an update makes of the rows of tasks. -/
theorem execute_update (h : ∀ t ∈ tasks, Fits t) (hnow : now.InMicros) (b : Task)
    (freshId : String) :
    (command now freshId (.update b)).statement.execute now
        (command now freshId (.update b)).parameters (tasks.map rowOf)
      = (.affected (tasks.filter fun t => t.id == b.id).length,
          (tasks.map (updated b now)).map rowOf) := by
  have hchosen : (tasks.map rowOf).filter (fun r => r.satisfies [(.id, .text b.id)])
      = (tasks.filter fun t => t.id == b.id).map rowOf :=
    filter_rows _ _ (satisfies_id · b.id) tasks
  have hadmitted : ((tasks.map rowOf).filter fun r => r.satisfies [(.id, .text b.id)]).all
      (fun r => ((r.set (newCells b now)).triggered now).admitted) = true := by
    rw [hchosen, List.all_map, List.all_eq_true]
    intro t ht
    rw [Function.comp_apply, row_updated (h t (List.mem_of_mem_filter ht)) hnow]
    exact row_admitted _
  have hrows : (tasks.map rowOf).map (fun r => if r.satisfies [(.id, .text b.id)] then
        (r.set (newCells b now)).triggered now else r)
      = (tasks.map (updated b now)).map rowOf := by
    rw [List.map_map, List.map_map]
    refine List.map_congr_left fun t ht => ?_
    rw [Function.comp_apply, Function.comp_apply, satisfies_id, row_updated (h t ht) hnow, updated,
      apply_ite rowOf]
  rw [← hrows, ← List.length_map rowOf, ← hchosen]
  exact if_pos hadmitted

theorem updated_of_ne (h : t.id ≠ b.id) : updated b now t = t := by
  have hne : (t.id == b.id) = false := by simpa using h
  rw [updated, hne, if_neg Bool.false_ne_true]

/-- Of the values in a table an update replaces the one with the id. -/
theorem map_updated_perm (hown : table.OwnIds) {old : Task} (hget : table.get? b.id = some old) :
    (table.values.map (updated b now)).Perm (table.insert b.id (old.replaced b now)).values := by
  have hsplit := (Keyed.values_perm hown b.id).map (updated b now)
  have hothers : (table.erase b.id).values.map (updated b now) = (table.erase b.id).values := by
    rw [Keyed.values_erase hown]
    conv_rhs => rw [← List.map_id (table.values.filter _)]
    refine List.map_congr_left fun t ht => updated_of_ne ?_
    simpa using (List.mem_filter.1 ht).2
  have hold : updated b now old = old.replaced b now := by
    simp [updated, hown _ _ hget]
  rw [hget, List.map_append, hothers, Option.toList_some, List.map_singleton, hold] at hsplit
  exact hsplit

theorem same_update (h : Holds rows table) (reading : Reading) {b : Task}
    (hfits : FitsCall (.update b)) : SameCall reading (.update b) rows table := by
  obtain ⟨tasks, rfl, hperm⟩ := h.rows_eq
  have hnow : reading.now.InMicros := Instant.inMicros_toMicros reading.wall
  have hfilter := filter_id h.ownIds hperm b.id
  have hexecute := execute_update (h.fits_mem hperm) hnow b reading.freshId
  rw [hfilter] at hexecute
  unfold SameCall
  rw [databaseStore_perform hexecute]
  cases hget : table.get? b.id with
  | none =>
    -- no row has the id, so none is written
    have hsame : tasks.map (updated b reading.now) = tasks := by
      rw [hget, Option.toList_none, List.filter_eq_nil_iff] at hfilter
      conv_rhs => rw [← List.map_id tasks]
      refine List.map_congr_left fun t ht => updated_of_ne ?_
      simpa using hfilter t ht
    simp only [memoryStore, Table.perform, hget, hsame]
    exact ⟨.same _, h⟩
  | some old =>
    have hid := h.ownIds b.id old hget
    have hold := (h.each b.id old hget).2
    have hnew : Fits (old.replaced b reading.now) :=
      ⟨hfits, hold.createdAt, hnow.latest hold.createdAt⟩
    simp only [memoryStore, Table.perform, hget]
    refine ⟨.same _, ⟨_, rfl, (hperm.map _).trans (map_updated_perm h.ownIds hget)⟩, ?_⟩
    rw [← hid]
    exact Table.Each.insert h.each hnew

/-! ## All calls -/

/-- Both stores answer any call alike and hold the same tasks after it. -/
theorem same_call (h : Holds rows table) (reading : Reading) {call : StoreCall}
    (hfits : FitsCall call) : SameCall reading call rows table := by
  cases call with
  | create draft => exact same_create h reading hfits
  | get id => exact same_get h reading id
  | list q => exact same_list h reading q
  | update task => exact same_update h reading hfits
  | delete id => exact same_delete h reading id
  | count => exact same_count h reading
  | countFiltered f => exact same_countFiltered h reading f

/-- Answers to one call that are alike. -/
inductive SameAnswer : StoreAnswer → StoreAnswer → Prop where
  | mk (call : StoreCall) {reply reply' : call.Reply} (h : Alike reply reply') :
      SameAnswer ⟨call, reply⟩ ⟨call, reply'⟩

/-- Both stores answer any number of calls alike and hold the same tasks after each. -/
theorem same_store (h : Holds rows table) (calls : List (Reading × StoreCall))
    (hfits : ∀ call ∈ calls, FitsCall call.2) :
    List.Forall₂ (fun a b => SameAnswer a.1 b.1 ∧ Holds a.2 b.2)
      (databaseStore.answers calls rows) (memoryStore.answers calls table) := by
  induction calls generalizing rows table with
  | nil => exact .nil
  | cons call calls ih =>
    obtain ⟨reading, call⟩ := call
    obtain ⟨halike, hholds⟩ := same_call h reading (hfits _ List.mem_cons_self)
    have hrest := ih hholds fun c hc => hfits c (List.mem_cons_of_mem _ hc)
    exact .cons ⟨.mk call halike, hholds⟩ hrest

theorem holds_singleton (h : Fits t) : Holds [rowOf t] (Keyed.empty.insert t.id t) :=
  ⟨⟨[t], rfl, .refl _⟩, Table.Each.insert (Table.each_empty Fits) h⟩

/-- A task with a due date is renamed, another one with its id is refused, and the tasks are
listed. -/
theorem same_store_of_renamed :
    let reading : Reading := ⟨Instant.ofUnixNanos 1500, "b"⟩
    let t : Task := Draft.toTask { title := "x", dueDate := some (Instant.ofUnixNanos 2000) } "a"
      reading.now
    let calls : List (Reading × StoreCall) := [(reading, .update { t with title := "y" }),
      (reading, .create { id := some "a" }), (reading, .list Query.default)]
    Holds [rowOf t] (Keyed.empty.insert t.id t) ∧ (∀ call ∈ calls, FitsCall call.2)
      ∧ List.Forall₂ (fun a b => SameAnswer a.1 b.1 ∧ Holds a.2 b.2)
        (databaseStore.answers calls [rowOf t])
        (memoryStore.answers calls (Keyed.empty.insert t.id t)) := by
  intro reading t calls
  have hdue : ∀ due, t.dueDate = some due → due.InMicros := by
    rintro due ⟨⟩
    rfl
  have hholds : Holds [rowOf t] (Keyed.empty.insert t.id t) :=
    holds_singleton ⟨hdue, Instant.inMicros_toMicros _, Instant.inMicros_toMicros _⟩
  have hcalls : ∀ call ∈ calls, FitsCall call.2 := by
    intro call hcall
    rcases List.mem_cons.1 hcall with rfl | hcall
    · exact hdue
    rcases List.mem_cons.1 hcall with rfl | hcall
    · rintro due ⟨⟩
    rcases List.mem_singleton.1 hcall with rfl
    trivial
  exact ⟨hholds, hcalls, same_store hholds calls hcalls⟩

end TaskBoard.Sql
