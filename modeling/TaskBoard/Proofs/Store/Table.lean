import TaskBoard.Proofs.Keyed
import TaskBoard.Store.Table

/-!
# What store calls change

Creates, updates and deletes are the calls that change a table, and only if they succeed. A create
adds a task, a delete that finds one takes it away, and an update keeps the number of tasks.

* `perform_of_not_changes`: a call leaves the table as it is unless its answer tells of a change;
* `size_perform`: how a call changes the number of tasks is told by its answer;
* `Each.perform`: what holds of every task, each under its own id, and goes on to hold;
* `OwnIds.perform`: this of the ids alone;
* `Each.of_get`, `Each.of_list`: it holds of what is read.
-/

namespace TaskBoard

/-- Whether a call may change the stored tasks. -/
def StoreCall.writes : StoreCall → Bool
  | .create _ | .update _ | .delete _ => true
  | _ => false

/-- Whether a call with this answer has created, updated or deleted a task. -/
def StoreCall.changes : (call : StoreCall) → call.Reply → Bool
  | .create _, .ok _ => true
  | .update _, .ok _ => true
  | .delete _, .ok true => true
  | _, _ => false

/-- By how much a call with this answer has changed the number of stored tasks. -/
def StoreCall.sizeChange : (call : StoreCall) → call.Reply → Int
  | .create _, .ok _ => 1
  | .delete _, .ok true => -1
  | _, _ => 0

/-- Only calls that may change the stored tasks do. -/
theorem StoreCall.writes_of_changes {call : StoreCall} {reply : call.Reply}
    (h : call.changes reply = true) : call.writes = true := by
  cases call with
  | create draft => rfl
  | update task => rfl
  | delete id => rfl
  | get id => cases h
  | list q => cases h
  | count => cases h
  | countFiltered f => cases h

theorem StoreCall.sizeChange_error (call : StoreCall) (e : TaskError) :
    call.sizeChange (.error e) = 0 := by
  cases call <;> rfl

theorem StoreCall.sizeChange_of_reads {call : StoreCall} (hcall : call.writes = false)
    (reply : call.Reply) : call.sizeChange reply = 0 := by
  cases call with
  | create draft => cases hcall
  | update task => cases hcall
  | delete id => cases hcall
  | get id => rfl
  | list q => rfl
  | count => rfl
  | countFiltered f => rfl

namespace Table

/-- A call leaves the table as it is unless its answer tells of a change. -/
theorem perform_of_not_changes {now : Instant} {freshId : String} {call : StoreCall} {t : Table}
    (h : call.changes (perform now freshId call t).1 = false) :
    (perform now freshId call t).2 = t := by
  cases call with
  | create draft =>
    by_cases hdup : t.contains (draft.id.getD freshId) = true
    · simp [perform, hdup]
    · simp [perform, hdup, StoreCall.changes] at h
  | get id =>
    simp only [perform]
    cases t.get? id <;> rfl
  | update task =>
    cases hold : t.get? task.id with
    | none => simp [perform, hold]
    | some old => simp [perform, hold, StoreCall.changes] at h
  | delete id =>
    cases hfound : t.contains id with
    | false => exact Keyed.erase_of_contains_eq_false hfound
    | true => simp [perform, hfound, StoreCall.changes] at h
  | list q => rfl
  | count => rfl
  | countFiltered f => rfl

/-- A call that only reads leaves the table as it is. -/
theorem perform_of_reads {now : Instant} {freshId : String} {call : StoreCall}
    (hcall : call.writes = false) (t : Table) : (perform now freshId call t).2 = t := by
  refine perform_of_not_changes (Bool.eq_false_iff.2 fun hchanges => ?_)
  rw [StoreCall.writes_of_changes hchanges] at hcall
  cases hcall

/-- How a call changes the number of tasks is told by its answer. -/
theorem size_perform (now : Instant) (freshId : String) (call : StoreCall) (t : Table) :
    ((perform now freshId call t).2.size : Int)
      = t.size + call.sizeChange (perform now freshId call t).1 := by
  cases call with
  | create draft =>
    by_cases hdup : t.contains (draft.id.getD freshId) = true
    · simp [perform, hdup, StoreCall.sizeChange]
    · have hsize := Keyed.size_insert (draft.toTask (draft.id.getD freshId) now)
        (Bool.eq_false_iff.2 hdup)
      simp [perform, hdup, StoreCall.sizeChange, hsize]
  | update task =>
    cases hold : t.get? task.id with
    | none => simp [perform, hold, StoreCall.sizeChange]
    | some old =>
      have hcontains : t.contains task.id = true := by simp [Keyed.contains, hold]
      have hsize := Keyed.size_insert_of_contains (old.replaced task now) hcontains
      simp [perform, hold, StoreCall.sizeChange, hsize]
  | delete id =>
    cases hfound : t.contains id with
    | false =>
      have herase := Keyed.erase_of_contains_eq_false hfound
      simp [perform, hfound, StoreCall.sizeChange, herase]
    | true =>
      have hsize := Keyed.size_erase hfound
      simp only [perform, hfound, StoreCall.sizeChange]
      omega
  | get id =>
    rw [perform_of_reads rfl]
    simp [StoreCall.sizeChange]
  | list q => simp [perform, StoreCall.sizeChange]
  | count => simp [perform, StoreCall.sizeChange]
  | countFiltered f => simp [perform, StoreCall.sizeChange]

/-! ## Every task -/

/-- Every task is kept under its own id, and `P` holds of it. -/
def Each (P : Task → Prop) (t : Table) : Prop :=
  ∀ key task, t.get? key = some task → task.id = key ∧ P task

variable {P : Task → Prop} {t : Table}

theorem each_empty (P : Task → Prop) : Each P .empty := by
  intro key task hget
  cases hget

theorem Each.insert {task : Task} (h : Each P t) (htask : P task) :
    Each P (t.insert task.id task) := by
  intro key found hget
  rw [Keyed.get?_insert] at hget
  by_cases hkey : key = task.id
  · rw [if_pos hkey] at hget
    obtain rfl := Option.some.inj hget
    exact ⟨hkey.symm, htask⟩
  · rw [if_neg hkey] at hget
    exact h key found hget

theorem Each.erase (h : Each P t) (id : String) : Each P (t.erase id) := by
  intro key found hget
  rw [Keyed.get?_erase] at hget
  by_cases hkey : key = id
  · rw [if_pos hkey] at hget
    cases hget
  · rw [if_neg hkey] at hget
    exact h key found hget

/-- A call keeps what holds of every task if it holds of what the call stores. -/
theorem Each.perform {now : Instant} {freshId : String} {call : StoreCall} (h : Each P t)
    (hcreate : ∀ draft, call = .create draft → P (draft.toTask (draft.id.getD freshId) now))
    (hupdate : ∀ task old, call = .update task → old.id = task.id → P old →
      P (old.replaced task now)) : Each P (perform now freshId call t).2 := by
  cases call with
  | create draft =>
    simp only [Table.perform]
    split
    · exact h
    · exact h.insert (hcreate draft rfl)
  | get id =>
    simp only [Table.perform]
    split <;> exact h
  | update task =>
    simp only [Table.perform]
    split
    · rename_i old hold
      obtain ⟨hid, hkept⟩ := h task.id old hold
      have hreplaced := h.insert (hupdate task old rfl hid hkept)
      rwa [show (old.replaced task now).id = task.id from hid] at hreplaced
    · exact h
  | delete id => exact h.erase id
  | list q => exact h
  | count => exact h
  | countFiltered f => exact h

/-- Every task is kept under its own id. -/
def OwnIds (t : Table) : Prop := ∀ key task, t.get? key = some task → task.id = key

theorem ownIds_iff_each : t.OwnIds ↔ t.Each fun _ => True := by simp [OwnIds, Each]

theorem Each.ownIds (h : Each P t) : t.OwnIds := fun key task hget => (h key task hget).1

/-- Every call keeps every task under its own id. -/
theorem OwnIds.perform {now : Instant} {freshId : String} (call : StoreCall) (h : t.OwnIds) :
    (Table.perform now freshId call t).2.OwnIds :=
  ((ownIds_iff_each.1 h).perform (fun _ _ => trivial) fun _ _ _ _ _ => trivial).ownIds

/-- A task that is read has the id that was asked for. -/
theorem Each.of_get {now : Instant} {freshId id : String} {task : Task} (h : Each P t)
    (hreply : (Table.perform now freshId (.get id) t).1 = .ok task) : task.id = id ∧ P task := by
  simp only [Table.perform] at hreply
  cases hget : t.get? id with
  | none =>
    rw [hget] at hreply
    cases hreply
  | some found =>
    rw [hget] at hreply
    obtain rfl := Except.ok.inj hreply
    exact h id found hget

/-- What holds of every task holds of every task of a list. -/
theorem Each.of_list {q : Query} {task : Task} (h : Each P t) (hmem : task ∈ t.list q) :
    P task := by
  have hvalue : task ∈ t.values :=
    (List.mem_filter.1 (List.mem_mergeSort.1 (List.mem_of_mem_drop (List.mem_of_mem_take hmem)))).1
  obtain ⟨key, hget⟩ := Keyed.mem_values_iff.1 hvalue
  exact (h key task hget).2

end Table

end TaskBoard
