import TaskBoard.Proofs.Run.Careful

/-!
# A store without a task

If no id is generated twice, a task that has been deleted does not come back: from then on the store
answers every call as if there had never been one with its id.

* `ordered_answers`, `gone_answers`: what every store call keeps;
* `gone_of_deletes`: a delete makes a task gone;
* `ignores_answers`: how the store answers when a task is gone.
-/

namespace TaskBoard.Service

open Run

variable {c : Conditions} {n : Nat} {w w' : World} {id : String} {call : StoreCall}
  {reply : call.Reply}

/-! ## The store -/

/-- Every task is kept under its own id, and the ids to come up to the `n`-th are new and differ
from each other. -/
structure Ordered (c : Conditions) (n : Nat) (w : World) : Prop where
  own : w.table.OwnIds
  distinct : Set.InjOn c.id (Set.Ico w.ids n)
  unused : ∀ i, w.ids ≤ i → i < n → w.table.get? (c.id i) = none

/-- There is no task with the id, and none of the ids to come up to the `n`-th is this one. -/
structure Gone (c : Conditions) (n : Nat) (id : String) (w : World) : Prop where
  absent : w.table.get? id = none
  retired : ∀ i, w.ids ≤ i → i < n → c.id i ≠ id

theorem ordered_answers (h : Ordered c n w) (hcall : call.LeavesId)
    (hanswer : StoreAnswers c call w reply w') (hids : w'.ids ≤ n) : Ordered c n w' := by
  obtain ⟨hmore, hhistory⟩ := hanswer.history hcall
  have hcome : Set.Ico w'.ids n ⊆ Set.Ico w.ids n := fun i hi => ⟨Nat.le_trans hmore hi.1, hi.2⟩
  refine ⟨?_, h.distinct.mono hcome, ?_⟩
  · cases hanswer with
    | performs => exact h.own.perform call
    | fails e => exact h.own
  · intro i hi hlt
    have hle : w.ids ≤ i := Nat.le_trans hmore hi
    cases hget : w'.table.get? (c.id i) with
    | none => rfl
    | some task =>
      rcases hhistory _ task hget with ⟨hid, hnew⟩ | ⟨old, hold, -⟩
      · -- the id that has just been generated comes before the `i`-th
        have hnext : w.ids < n := Nat.lt_of_lt_of_le hnew hids
        have heq : i = w.ids := h.distinct ⟨hle, hlt⟩ ⟨Nat.le_refl _, hnext⟩ hid
        omega
      · rw [h.unused i hle hlt] at hold
        cases hold

theorem gone_answers (h : Gone c n id w) (hcall : call.LeavesId)
    (hanswer : StoreAnswers c call w reply w') (hids : w'.ids ≤ n) : Gone c n id w' := by
  obtain ⟨hmore, hhistory⟩ := hanswer.history hcall
  refine ⟨?_, fun i hi => h.retired i (Nat.le_trans hmore hi)⟩
  cases hget : w'.table.get? id with
  | none => rfl
  | some task =>
    rcases hhistory _ task hget with ⟨hid, hnew⟩ | ⟨old, hold, -⟩
    · exact absurd hid.symm (h.retired _ (Nat.le_refl _) (Nat.lt_of_lt_of_le hnew hids))
    · rw [h.absent] at hold
      cases hold

/-- A task that has just been deleted is gone. -/
theorem gone_of_deletes (h : Ordered c n w)
    (hanswer : StoreAnswers c (.delete id) w (.ok true) w') : Gone c n id w' := by
  generalize hreply : (Except.ok true : StoreCall.Reply (.delete id)) = reply at hanswer
  cases hanswer with
  | fails e => cases hreply
  | performs =>
    have hfound : w.table.contains id = true := (Except.ok.inj hreply).symm
    refine ⟨?_, ?_⟩
    · simp [World.performStore, Table.perform]
    · rintro i hi hlt rfl
      rw [Keyed.contains, h.unused i hi hlt] at hfound
      cases hfound

/-! ## What the store tells of a task that is gone -/

/-- The id that a call is about. -/
def subject? : StoreCall → Option String
  | .get id | .delete id => some id
  | .update task => some task.id
  | _ => none

/-- An answer that tells of no task with the id, but as `t` has no such task. -/
def Unaware (id : String) (t : Table) : (call : StoreCall) → call.Reply → Prop
  | .create _, reply => ∀ task : Task, reply = .ok task → task.id ≠ id
  | .get key, reply =>
    (key = id → reply = .error (.notFound id)) ∧ ∀ task : Task, reply = .ok task → task.id ≠ id
  | .list _, reply => ∀ tasks : List Task, reply = .ok tasks → ∀ task ∈ tasks, task.id ≠ id
  | .update task, reply => task.id = id → reply = .error (.notFound id)
  | .delete key, reply => key = id → reply = .ok false
  | .count, reply => reply = .ok (Table.countOf (t.values.filter fun task => task.id ≠ id).length)
  | .countFiltered f, reply =>
    reply = .ok (Table.countOf (t.values.filter fun task => task.id ≠ id ∧ f.accepts task).length)

/-- A call that is answered as if there had never been a task with the id, and makes none. -/
structure Ignores (id : String) (call : StoreCall) (reply : call.Reply) (t t' : Table) : Prop where
  answer : Unaware id t call reply
  unchanged : subject? call = some id → t' = t
  absent : t'.get? id = none

theorem id_ne_of_mem_values (h : Ordered c n w) (hgone : Gone c n id w) :
    ∀ task ∈ w.table.values, task.id ≠ id := by
  rintro task hmem rfl
  obtain ⟨key, hget⟩ := Keyed.mem_values_iff.1 hmem
  obtain rfl := h.own key task hget
  rw [hgone.absent] at hget
  cases hget

theorem unaware_answers (h : Ordered c n w) (hgone : Gone c n id w) (hcall : call.LeavesId)
    (hanswer : StoreAnswers c call w reply w') (hids : w'.ids ≤ n)
    (hreply : reply = (w.performStore c call).1) : Unaware id w.table call reply := by
  have hvalues := id_ne_of_mem_values h hgone
  have hcount : ∀ f : Filter, w.table.values.filter (fun task => task.id ≠ id ∧ f.accepts task)
      = w.table.values.filter f.accepts := by
    intro f
    refine List.filter_congr fun task hmem => ?_
    simp [hvalues task hmem]
  cases call with
  | create draft =>
    rintro task hok rfl
    cases hanswer with
    | fails e => cases hok
    | performs =>
      have hnone : draft.id = none := hcall
      have hid : draft.id.getD (c.id w.ids) = c.id w.ids := by
        rw [hnone]
        rfl
      have hnew : w.ids + 1 ≤ n := by
        simpa [World.performStore, World.takesId, hnone] using hids
      simp only [World.performStore, Table.perform, hid] at hok
      split at hok
      · cases hok
      · obtain rfl := Except.ok.inj hok
        exact hgone.retired _ (Nat.le_refl _) hnew rfl
  | get key =>
    rw [hreply]
    simp only [World.performStore, Table.perform]
    cases hget : w.table.get? key with
    | none =>
      refine ⟨?_, fun task hok => by cases hok⟩
      rintro rfl
      rfl
    | some task =>
      have hkey : key ≠ id := by
        rintro rfl
        rw [hgone.absent] at hget
        cases hget
      refine ⟨fun heq => absurd heq hkey, ?_⟩
      rintro task' hok
      obtain rfl := Except.ok.inj hok
      rw [h.own key task hget]
      exact hkey
  | list q =>
    intro tasks hok task hmem
    rw [hreply] at hok
    obtain rfl := Except.ok.inj hok
    have hmatching : task ∈ w.table.matching q.normalized.filter :=
      List.mem_of_mem_drop (List.mem_of_mem_take hmem)
    have hvalue := (List.mergeSort_perm _ Task.newestFirst).mem_iff.1 hmatching
    exact hvalues task (List.mem_filter.1 hvalue).1
  | update task =>
    rintro rfl
    rw [hreply]
    simp [World.performStore, Table.perform, hgone.absent]
  | delete key =>
    rintro rfl
    rw [hreply]
    simp [World.performStore, Table.perform, Keyed.contains, hgone.absent]
  | count =>
    have hall : w.table.values.filter (Filter.accepts {})
        = w.table.values.filter fun task => task.id ≠ id := by
      refine List.filter_congr fun task hmem => ?_
      have hid : decide (task.id ≠ id) = true := decide_eq_true (hvalues task hmem)
      rw [hid]
      rfl
    have hlength := congrArg (fun tasks => Table.countOf tasks.length) hall
    rw [hreply]
    exact congrArg Except.ok hlength
  | countFiltered f =>
    have hall := congrArg (fun tasks => Table.countOf tasks.length) (hcount f)
    rw [hreply]
    exact congrArg Except.ok hall.symm

theorem unchanged_of_gone (hgone : Gone c n id w) (hsubject : subject? call = some id) :
    (w.performStore c call).2.table = w.table := by
  cases call with
  | get key => exact World.table_performStore rfl w
  | update task =>
    obtain rfl := Option.some.inj hsubject
    simp [World.performStore, Table.perform, hgone.absent]
  | delete key =>
    obtain rfl := Option.some.inj hsubject
    have hnone : w.table.contains key = false := by simp [Keyed.contains, hgone.absent]
    exact Keyed.erase_of_contains_eq_false hnone
  | _ => cases hsubject

/-- How the store answers when a task is gone. -/
theorem ignores_answers (h : Ordered c n w) (hgone : Gone c n id w) (hcall : call.LeavesId)
    (hanswer : StoreAnswers c call w reply w') (hids : w'.ids ≤ n)
    (hreply : reply = (w.performStore c call).1) : Ignores id call reply w.table w'.table where
  answer := unaware_answers h hgone hcall hanswer hids hreply
  unchanged := by
    intro hsubject
    cases hanswer with
    | performs => exact unchanged_of_gone hgone hsubject
    | fails e => rfl
  absent := (gone_answers hgone hcall hanswer hids).absent

end TaskBoard.Service
