import TaskBoard.Proofs.Run.Contract
import TaskBoard.Proofs.Service.PartialUpdate

/-!
# A due date that stays

Once a task has a due date and no list from before is cached, the date is all that is ever shown of
it: by the store, by what is read from it, and by the lists that are cached and found again. Only an
update of the task with another date, or another task under its id, could change that. `Holds` says
so of a world, and `contract` which calls leave it so.

* `DueDate.sound_contract`: the calls of the contract keep what is shown;
* `DueDate.leaves_create`, `leaves_get`, `leaves_update`, `leaves_delete`, `allows_list`: the
  operations of the service;
* `Service.run_create_flushed`: what a create leaves, and that no list is cached after it.
-/

namespace TaskBoard

open Run

/-- If the task has this id it has this due date. -/
def Task.DueAs (id : String) (due : Option Instant) (t : Task) : Prop := t.id = id → t.dueDate = due

/-- Wherever one of the tasks has this id it has this due date. -/
def Task.AllDueAs (id : String) (due : Option Instant) (tasks : List Task) : Prop :=
  ∀ t ∈ tasks, t.DueAs id due

/-- The task has the due date if it has been made the task with the id. -/
theorem Table.OwnIds.insert_due {t : Table} {task : Task} {due : Option Instant}
    (h : t.OwnIds) (hdue : task.dueDate = due) :
    Table.Each (Task.DueAs task.id due) (t.insert task.id task) := by
  intro key found hget
  rw [Keyed.get?_insert] at hget
  by_cases hkey : key = task.id
  · rw [if_pos hkey] at hget
    obtain rfl := Option.some.inj hget
    exact ⟨hkey.symm, fun _ => hdue⟩
  · rw [if_neg hkey] at hget
    have hid : found.id = key := h key found hget
    exact ⟨hid, fun heq => absurd (hid.symm.trans heq) hkey⟩

namespace DueDate

section Contract

variable (caching : Option Caching) (c : Conditions) (id : String) (due : Option Instant)
  (first : Nat)

/-- Wherever the task with the id is to be seen it has the due date. Cached lists are to be seen if
lists are cached at all. Ids are generated from the number `first` on. -/
structure Holds (w : World) : Prop where
  stored : w.table.Each (Task.DueAs id due)
  cached : caching ≠ none →
    Caching.Cached (fun _ tasks _ => Task.AllDueAs id due tasks) w.cache
  first_le : first ≤ w.ids

/-- Store calls that leave the due date. -/
def May : StoreCall → Prop
  | .create draft => draft.id = none ∧ ∀ n, first ≤ n → c.id n ≠ id
  | .update task => task.DueAs id due
  | _ => True

/-- What is read from the store shows the due date. -/
def Tells : (call : StoreCall) → call.Reply → Prop
  | .get key, .ok task => Task.id task = key ∧ Task.DueAs id due task
  | .list _, .ok tasks => Task.AllDueAs id due tasks
  | _, _ => True

/-- Cache calls that leave the due date. -/
def MayCache : CacheCall → Prop
  | .set key text _ => caching ≠ none ∧ ∃ (q : Query) (tasks : List Task),
      key = q.cacheKey ∧ text = Caching.encode tasks ∧ Task.AllDueAs id due tasks
  | _ => caching ≠ none

/-- A list that is found in the cache shows the due date. -/
def TellsCache : (call : CacheCall) → call.Reply → Prop
  | .get key, .ok (some text) => ∀ (q : Query) (tasks : List Task),
      key = q.cacheKey → Caching.decode? text = some tasks → Task.AllDueAs id due tasks
  | _, _ => True

/-- What leaves the due date of the task with the id. -/
def contract : Contract where
  Holds := Holds caching id due first
  May := May c id due first
  Tells := Tells id due
  MayCache := MayCache caching id due
  TellsCache := TellsCache id due

end Contract

variable {caching : Option Caching} {c : Conditions} {id : String} {due : Option Instant}
  {first : Nat}

theorem tells_error (call : StoreCall) (e : TaskError) : Tells id due call (.error e) := by
  cases call <;> trivial

/-- A call of the store leaves the due date, and what it reads shows it. -/
theorem holds_performStore {call : StoreCall} {w : World} (hmay : May c id due first call)
    (hw : Holds caching id due first w) :
    Holds caching id due first (w.performStore c call).2
      ∧ Tells id due call (w.performStore c call).1 := by
  obtain ⟨hstored, hcached, hfirst⟩ := hw
  refine ⟨⟨?_, hcached, ?_⟩, ?_⟩
  · refine hstored.perform (fun draft hdraft heq => ?_) fun task old htask hid _ heq => ?_
    · -- a new task has another id
      cases hdraft
      obtain ⟨hnone, hother⟩ := hmay
      rw [Draft.toTask, hnone] at heq
      exact absurd heq (hother w.ids hfirst)
    · -- what is stored of an update shows the date if the update does
      cases htask
      exact hmay (hid.symm.trans heq)
  · simp only [World.performStore]
    split <;> omega
  · cases call with
    | get key =>
      simp only [World.performStore]
      cases hreply : (Table.perform w.now (c.id w.ids) (.get key) w.table).1 with
      | error e => trivial
      | ok task => exact hstored.of_get hreply
    | list q => exact fun t ht => hstored.of_list ht
    | create draft => trivial
    | update task => trivial
    | delete key => trivial
    | count => trivial
    | countFiltered f => trivial

/-- A call of the cache leaves the due date, and a list that is found shows it. -/
theorem holds_performCache {call : CacheCall} {w : World} (hmay : MayCache caching id due call)
    (hw : Holds caching id due first w) :
    Holds caching id due first (w.performCache call).2
      ∧ TellsCache id due call (.ok (w.performCache call).1) := by
  obtain ⟨hstored, hcached, hfirst⟩ := hw
  have hsome : caching ≠ none := by
    cases call with
    | set key text ttl => exact hmay.1
    | get key => exact hmay
    | invalidate start => exact hmay
  have hlists := hcached hsome
  refine ⟨⟨hstored, fun _ => ?_, hfirst⟩, ?_⟩
  · refine hlists.of_perform w.timer call fun key text ttl hcall => ?_
    cases hcall
    exact hmay.2
  · cases call with
    | set key text ttl => trivial
    | invalidate start => trivial
    | get key =>
      cases hfound : (w.performCache (.get key)).1 with
      | none => trivial
      | some text =>
        intro q tasks hkey hdecode
        subst hkey
        obtain ⟨t, hknown, -⟩ := hlists.of_hit hfound hdecode
        exact hknown

/-- The calls of the contract keep what is shown. -/
theorem sound_contract : (contract caching c id due first).Sound c where
  frame := by
    rintro w w' htable hcache hids ⟨hstored, hcached, hfirst⟩
    refine ⟨?_, ?_, ?_⟩
    · rwa [htable]
    · rwa [hcache]
    · rwa [hids]
  store := by
    intro call failure w hmay hw
    cases failure with
    | some detail => exact ⟨hw, tells_error call _⟩
    | none => exact holds_performStore hmay hw
  cache := by
    intro call failure w hmay hw
    cases failure with
    | some e => exact ⟨hw, by cases call <;> trivial⟩
    | none => exact holds_performCache hmay hw

/-! ## The operations of the service -/

/-- An operation that leaves the due date. -/
abbrev Leaves {α : Type} (caching : Option Caching) (c : Conditions) (id : String)
    (due : Option Instant) (first : Nat) (good : α → Prop) (op : Operation α) : Prop :=
  Abides (contract caching c id due first) good op

theorem leaves_flush : Leaves caching c id due first (fun _ => True) (Caching.flush caching) := by
  cases caching with
  | none => exact .done trivial
  | some g => exact .cache (nofun : some g ≠ none) fun _ _ => .done trivial

/-- A page that shows the due date, if it is one. -/
def ShownBy (id : String) (due : Option Instant) (result : Except TaskError (List Task)) : Prop :=
  ∀ tasks, result = .ok tasks → Task.AllDueAs id due tasks

theorem ShownBy.ok {tasks : List Task} (h : Task.AllDueAs id due tasks) :
    ShownBy id due (.ok tasks) := by
  intro tasks' htasks
  rwa [← Except.ok.inj htasks]

theorem ShownBy.error (e : TaskError) : ShownBy id due (.error e) :=
  fun _ h => nomatch h

theorem leaves_readThrough (g : Caching) (q : Query) :
    Leaves (some g) c id due first (ShownBy id due) (g.readThrough q) := by
  refine .store trivial fun reply htells => ?_
  cases reply with
  | error e => exact .done (.error e)
  | ok tasks => exact .cache ⟨nofun, q, tasks, rfl, rfl, htells⟩ fun _ _ => .done (.ok htells)

/-- A list leaves the due date and shows it, whether it is found in the cache or not. -/
theorem leaves_list (q : Query) :
    Leaves caching c id due first (ShownBy id due) (Caching.perform caching (.list q)) := by
  cases caching with
  | none =>
    refine .store trivial fun reply htells => .done ?_
    cases reply with
    | error e => exact .error e
    | ok tasks => exact .ok htells
  | some g =>
    refine .cache (nofun : some g ≠ none) fun reply htells => ?_
    rcases reply with e | _ | text
    · exact leaves_readThrough g q.normalized
    · exact leaves_readThrough g q.normalized
    · simp only
      split
      · rename_i tasks hdecode
        exact .done (.ok (htells _ tasks rfl hdecode))
      · exact leaves_readThrough g q.normalized

/-- Reading a task leaves the due date and shows it. -/
theorem leaves_get (key : String) :
    Leaves caching c id due first (Tells id due (.get key)) (Caching.perform caching (.get key)) :=
  .store trivial fun _ htells => .done htells

/-- A write of the cached store leaves the due date if the call may. -/
theorem leaves_write {call : StoreCall} (hwrites : call.writes = true)
    (hmay : May c id due first call) :
    Leaves caching c id due first (fun _ => True) (Caching.perform caching call) := by
  have hflush : ∀ {α : Type} (a : α), Leaves caching c id due first (fun _ => True)
      ((Caching.flush caching).map fun _ => a) := fun a => leaves_flush.map fun _ _ => trivial
  cases call with
  | create draft =>
    refine .store hmay fun reply _ => ?_
    cases reply with
    | error e => exact .done trivial
    | ok task => exact hflush _
  | update task =>
    refine .store hmay fun reply _ => ?_
    cases reply with
    | error e => exact .done trivial
    | ok done => exact hflush _
  | delete key =>
    refine .store hmay fun reply _ => ?_
    rcases reply with e | _ | _
    · exact .done trivial
    · exact .done trivial
    · exact hflush _
  | get key => cases hwrites
  | list q => cases hwrites
  | count => cases hwrites
  | countFiltered f => cases hwrites

theorem leaves_create {draft : Draft} (hid : draft.id = none)
    (hother : ∀ n, first ≤ n → c.id n ≠ id) :
    Leaves caching c id due first (fun _ => True) (Service.create caching draft) := by
  unfold Service.create
  cases normalizeTitle draft.title with
  | error e => exact .done trivial
  | ok title =>
    have hmay : May c id due first (.create { draft with title }) := ⟨hid, hother⟩
    refine (leaves_write rfl hmay).bind fun reply _ => ?_
    cases reply with
    | error e => exact .done trivial
    | ok task => exact .gauge (.done trivial)

/-- An update of the task leaves the date if its patch does. -/
theorem leaves_update {p : Patch}
    (hp : p.id = id → (p.dueDate.map Instant.toMicros).apply due = due) :
    Leaves caching c id due first (fun _ => True) (Service.update caching p) := by
  unfold Service.update
  refine (leaves_get p.id).bind fun loaded hloaded => ?_
  cases loaded with
  | error e => exact .done trivial
  | ok task =>
    simp only
    obtain ⟨hid, hdue⟩ := hloaded
    cases hmerge : p.merge task with
    | error e => exact .done trivial
    | ok merged =>
      have hmay : May c id due first (.update merged) := by
        obtain ⟨title, -, rfl⟩ := Patch.merge_eq_ok_iff.1 hmerge
        intro heq
        have hsame : (p.dueDate.map Instant.toMicros).apply task.dueDate = due := by
          rw [hdue heq]
          exact hp (hid.symm.trans heq)
        exact hsame
      refine (leaves_write rfl hmay).bind fun stored _ => ?_
      cases stored with
      | error e => exact .done trivial
      | ok done => exact (leaves_get p.id).mono fun _ _ => trivial

theorem leaves_delete (key : String) :
    Leaves caching c id due first (fun _ => True) (Service.delete caching key) := by
  unfold Service.delete
  have hmay : May c id due first (.delete key) := trivial
  refine (leaves_write rfl hmay).bind fun reply _ => ?_
  rcases reply with e | _ | _
  · exact .done trivial
  · exact .done trivial
  · exact .gauge (.done trivial)

/-- A page shows the due date. -/
theorem allows_list (q : Query) :
    (contract caching c id due first).Allows
      (fun result => ∀ page, result = .ok page → Task.AllDueAs id due page.items)
      (Service.list caching q) := by
  refine ⟨_, leaves_list q.normalized, fun result hresult page hpage => ?_⟩
  rcases result with e | ⟨items, total⟩
  · cases hpage
  · cases hpage
    exact hresult items total rfl items rfl

end DueDate

/-! ## A create that goes well -/

/-- Where no store call fails, a task is created under an id that is free. -/
theorem Called.create_eq {c : Conditions} (hc : c.Reliable) {draft : Draft} {w w' : World}
    (hid : draft.id = none) (hnew : w.table.get? (c.id w.ids) = none)
    {reply : (StoreCall.create draft).Reply} (h : Called c (.create draft) w reply w') :
    reply = .ok (draft.toTask (c.id w.ids) w.now)
      ∧ w'.table = w.table.insert (c.id w.ids) (draft.toTask (c.id w.ids) w.now) := by
  rcases h.outcome with ⟨detail, hfails, -⟩ | ⟨-, hperform⟩
  · rw [World.nextFailure, hc] at hfails
    cases hfails
  · have hfree : w.table.contains (c.id w.ids) = false := by rw [Keyed.contains, hnew]; rfl
    simp only [Table.perform, hid, Option.getD_none, hfree, Bool.false_eq_true, if_false]
      at hperform
    exact Prod.mk.inj hperform

/-- A create that is not refused stores the task with its trimmed title, drops the cached lists if
its flush goes well, and returns the task. -/
theorem Service.run_create_flushed {c : Conditions} (hc : c.Reliable) {caching : Option Caching}
    {draft : Draft} {title : String} {w : World} (hid : draft.id = none)
    (htitle : normalizeTitle draft.title = .ok title) (hnew : w.table.get? (c.id w.ids) = none) :
    ∃ task w', run c none (create caching draft) w = (some (.ok task), w')
      ∧ task = Draft.toTask { draft with title } (c.id w.ids) w.now
      ∧ w'.table = w.table.insert task.id task
      ∧ ∀ g, caching = some g → c.CacheReliable g → Caching.NoLists w'.cache := by
  have hid' : ({ draft with title } : Draft).id = none := hid
  unfold create
  simp only [htitle]
  obtain ⟨reply, w₁, hcalled, hflushed, hrun⟩ :=
    run_perform_flushed caching c (.create { draft with title }) nofun w _
  obtain ⟨rfl, htable⟩ := hcalled.create_eq hc hid' hnew
  exact ⟨_, w₁.changeGauge .increment, hrun, rfl, htable, hflushed rfl⟩

end TaskBoard
