import TaskBoard.Proofs.Cache.Harmless
import TaskBoard.Proofs.Run.Deadline
import TaskBoard.Proofs.Run.PageAndCount
import TaskBoard.Proofs.Task.Fields
import TaskBoard.Service

/-!
# Operations that fail

An operation can fail at each of its calls and between them. Up to a write that succeeds nothing
has been touched, and after one there is only the read-back of an update left to fail.

* `run_perform_flushed`, `run_perform`: one call of the cached store, with the flush that may follow;
* `Service.same_of_failed_create`, `Service.same_of_failed_delete`, `Service.same_of_get`: these
  leave everything as it was;
* `Service.leaves_of_failed_update`: so does an update, but for a read-back that fails;
* `Service.finds_list`: a list fails with the store only;
* `Service.update_unknown`: an update of a task that is not there is refused before its patch is
  looked at.
-/

namespace TaskBoard

open Run

variable {α : Type} {caching : Option Caching} {c : Conditions}

/-- Tasks, gauge and cached lists are as they were. -/
structure Run.World.SameContents (w w' : World) : Prop where
  table_eq : w'.table = w.table
  gauge_eq : w'.gauge = w.gauge
  cache_eq : w'.cache = w.cache

namespace Run.World.SameContents

variable {w w' w'' : World}

theorem rfl : w.SameContents w := ⟨Eq.refl _, Eq.refl _, Eq.refl _⟩

theorem trans (h : w.SameContents w') (h' : w'.SameContents w'') : w.SameContents w'' :=
  ⟨h'.table_eq.trans h.table_eq, h'.gauge_eq.trans h.gauge_eq, h'.cache_eq.trans h.cache_eq⟩

end Run.World.SameContents

/-! ## One call -/

/-- How the store call that comes next would go. -/
abbrev Run.World.nextFailure (c : Conditions) (w : World) (call : StoreCall) : Option String :=
  (c.store w.storeCalls.length call).failure

/-- The world after a store call, and after the flush if there has been one. -/
structure Called (c : Conditions) (call : StoreCall) (w : World) (reply : call.Reply) (w' : World) :
    Prop where
  outcome : (∃ detail, w.nextFailure c call = some detail ∧ reply = .error (.persistence detail)
      ∧ w'.table = w.table)
    ∨ w.nextFailure c call = none
      ∧ (reply, w'.table) = Table.perform w.now (c.id w.ids) call w.table
  gauge_eq : w'.gauge = w.gauge
  wall_eq : w'.wall = w.wall
  calls_eq : w'.storeCalls.length = w.storeCalls.length + 1
  cache_eq : call.changes reply = false → w'.cache = w.cache

theorem called_storeCall (c : Conditions) (call : StoreCall) (w : World) :
    Called c call w (w.storeCall c call).1 (w.storeCall c call).2 := by
  simp only [World.storeCall, World.noteStore]
  rcases hfate : (c.store w.storeCalls.length call).failure with _ | detail
  · exact ⟨.inr ⟨hfate, rfl⟩, rfl, rfl, rfl, fun _ => rfl⟩
  · exact ⟨.inl ⟨detail, hfate, rfl, rfl⟩, rfl, rfl, rfl, fun _ => rfl⟩

/-- A cache call leaves all but the cache to the store call before it. -/
theorem Called.after_cache {call : StoreCall} {w w' : World} {reply : call.Reply}
    (h : Called c call w reply w') (hchanges : call.changes reply = true) (limit : Nat)
    (asked : CacheCall) : Called c call w reply (w'.cacheCall c limit asked).2 := by
  obtain ⟨houtcome, hgauge, hwall, hcalls, -⟩ := h
  have hframe : (w'.cacheCall c limit asked).2.table = w'.table
      ∧ (w'.cacheCall c limit asked).2.gauge = w'.gauge
      ∧ (w'.cacheCall c limit asked).2.wall = w'.wall
      ∧ (w'.cacheCall c limit asked).2.storeCalls = w'.storeCalls := by
    simp only [World.cacheCall]
    cases ((w'.noteCache c asked).1.limited limit).2 with
    | none => exact ⟨rfl, rfl, rfl, rfl⟩
    | some e => exact ⟨rfl, rfl, rfl, rfl⟩
  obtain ⟨htable', hgauge', hwall', hcalls'⟩ := hframe
  refine ⟨?_, hgauge'.trans hgauge, hwall'.trans hwall, ?_, ?_⟩
  · rw [htable']
    exact houtcome
  · rw [hcalls']
    exact hcalls
  · intro hnone
    rw [hchanges] at hnone
    cases hnone

/-- No cache call fails, and none takes longer than it may. -/
def Run.Conditions.CacheReliable (c : Conditions) (g : Caching) : Prop :=
  ∀ n call, ((c.cache n call).limited g.opTimeout).2 = none

/-- A flush that goes well leaves no cached list. -/
theorem noLists_flush {g : Caching} (hc : c.CacheReliable g) (w : World) :
    Caching.NoLists (w.cacheCall c g.opTimeout (.invalidate listKeyPrefix)).2.cache := by
  have hgoes := hc w.cacheCalls.length (.invalidate listKeyPrefix)
  simp only [World.cacheCall, World.noteCache, hgoes, World.endCache]
  exact Caching.noLists_invalidate w.cache

/-- A call other than a list is one store call, and a flush if it has changed the stored tasks. -/
theorem run_perform_flushed (caching : Option Caching) (c : Conditions) (call : StoreCall)
    (hcall : ∀ q, call ≠ .list q) (w : World) (f : call.Reply → Operation α) :
    ∃ reply w', Called c call w reply w'
      ∧ (call.changes reply = true → ∀ g, caching = some g → c.CacheReliable g →
        Caching.NoLists w'.cache)
      ∧ run c none ((Caching.perform caching call).bind f) w = run c none (f reply) w' := by
  have hstore := called_storeCall c call w
  cases caching with
  | none =>
    refine ⟨_, _, hstore, ?_, ?_⟩
    · intro _ g hg
      cases hg
    · rw [Caching.perform_none hcall]
      exact run_store c call f w
  | some g =>
    rcases Caching.perform_cases g call with ⟨q, hlist⟩ | ⟨-, hperform⟩
    · exact absurd hlist (hcall q)
    · rw [hperform, Operation.bind, run_store]
      unfold Caching.afterStore
      by_cases hchanges : call.changes (w.storeCall c call).1 = true
      · rw [if_pos hchanges, Operation.bind, run_cache]
        refine ⟨_, _, hstore.after_cache hchanges _ _, fun _ g' hg hc => ?_, rfl⟩
        obtain rfl := Option.some.inj hg
        exact noLists_flush hc _
      · rw [if_neg hchanges]
        exact ⟨_, _, hstore, fun h => absurd h hchanges, rfl⟩

/-- What becomes of the tasks and the gauge in a call other than a list. -/
theorem run_perform (caching : Option Caching) (c : Conditions) (call : StoreCall)
    (hcall : ∀ q, call ≠ .list q) (w : World) (f : call.Reply → Operation α) :
    ∃ reply w', Called c call w reply w'
      ∧ run c none ((Caching.perform caching call).bind f) w = run c none (f reply) w' := by
  obtain ⟨reply, w', hcalled, -, hrun⟩ := run_perform_flushed caching c call hcall w f
  exact ⟨reply, w', hcalled, hrun⟩

namespace Called

variable {w w' : World}

/-- A call that tells of no change leaves everything as it was. -/
theorem sameContents {call : StoreCall} {reply : call.Reply} (h : Called c call w reply w')
    (hchanges : call.changes reply = false) : w.SameContents w' := by
  refine ⟨?_, h.gauge_eq, h.cache_eq hchanges⟩
  rcases h.outcome with ⟨detail, -, -, htable⟩ | ⟨-, hperform⟩
  · exact htable
  · obtain ⟨rfl, htable⟩ := Prod.mk.inj hperform
    rw [htable]
    exact Table.perform_of_not_changes hchanges

/-- Reading a task fails, or it tells whether there is one. -/
theorem get_cases {id : String} {reply : (StoreCall.get id).Reply}
    (h : Called c (.get id) w reply w') :
    (∃ detail, w.nextFailure c (.get id) = some detail ∧ reply = .error (.persistence detail))
    ∨ w.nextFailure c (.get id) = none
      ∧ ((∃ task, w.table.get? id = some task ∧ reply = .ok task)
        ∨ w.table.get? id = none ∧ reply = .error (.notFound id)) := by
  rcases h.outcome with ⟨detail, hfails, hreply, -⟩ | ⟨hgoes, hperform⟩
  · exact .inl ⟨detail, hfails, hreply⟩
  · refine .inr ⟨hgoes, ?_⟩
    simp only [Table.perform] at hperform
    cases hget : w.table.get? id with
    | some task =>
      rw [hget] at hperform
      exact .inl ⟨task, rfl, (Prod.mk.inj hperform).1⟩
    | none =>
      rw [hget] at hperform
      exact .inr ⟨rfl, (Prod.mk.inj hperform).1⟩

/-- Replacing a task that is there fails, or it is done. -/
theorem update_cases {task old : Task} {reply : (StoreCall.update task).Reply}
    (hold : w.table.get? task.id = some old) (h : Called c (.update task) w reply w') :
    (∃ detail, w.nextFailure c (.update task) = some detail ∧ reply = .error (.persistence detail))
    ∨ w.nextFailure c (.update task) = none ∧ reply = .ok ()
      ∧ w'.table = w.table.insert task.id (old.replaced task w.now) := by
  rcases h.outcome with ⟨detail, hfails, hreply, -⟩ | ⟨hgoes, hperform⟩
  · exact .inl ⟨detail, hfails, hreply⟩
  · rw [Table.perform, hold] at hperform
    obtain ⟨hreply, htable⟩ := Prod.mk.inj hperform
    exact .inr ⟨hgoes, hreply, htable⟩

end Called

/-! ## The operations of the service -/

/-- The load and the write of an update with this patch go well, and the read-back fails. -/
structure ReadBackFails (c : Conditions) (w : World) (p : Patch) (old merged : Task) : Prop where
  loads : (c.store w.storeCalls.length (.get p.id)).failure = none
  finds : w.table.get? p.id = some old
  merges : p.merge old = .ok merged
  stores : (c.store (w.storeCalls.length + 1) (.update merged)).failure = none
  fails : (c.store (w.storeCalls.length + 2) (.get p.id)).failure.isSome = true

theorem Run.World.now_eq {w w' : World} (h : w'.wall = w.wall) : w'.now = w.now := by
  unfold World.now
  rw [h]

/-- What a store keeps of the old task is what a patch leaves. -/
theorem replaced_of_merge {p : Patch} {old merged : Task} (h : p.merge old = .ok merged)
    (now : Instant) :
    old.replaced merged now = { merged with updatedAt := now.latest old.createdAt } := by
  obtain ⟨hid, hcreated⟩ := Patch.merge_frame h
  unfold Task.replaced
  rw [← hid, ← hcreated]

/-- The old contents with one task merged, at a new time of its update. -/
def mergedTable (w : World) (p : Patch) (old merged : Task) : Table :=
  w.table.insert p.id { merged with updatedAt := w.now.latest old.createdAt }

/-- What may be left behind when a store call has failed: everything as it was, but for an update
that was to be read back. -/
inductive LeftBroken (c : Conditions) (w : World) (patch : Option Patch) (w' : World) : Prop where
  | same (hback : ∀ p old merged, patch = some p → ¬ ReadBackFails c w p old merged)
      (hsame : w.SameTasks w')
  | merged {p : Patch} {old merged : Task} (hpatch : patch = some p)
      (hback : ReadBackFails c w p old merged) (htable : w'.table = mergedTable w p old merged)
      (hgauge : w'.gauge = w.gauge)

/-- What an operation leaves behind that fails with this error. -/
def Leaves (c : Conditions) (w : World) (patch : Option Patch) : TaskError → World → Prop
  | .persistence _, w' => LeftBroken c w patch w'
  | _, w' => w.SameContents w'

/-- What leaves everything as it was leaves what may be left. -/
theorem Run.World.SameContents.leaves {w w' : World} {patch : Option Patch} (h : w.SameContents w')
    (hback : ∀ p old merged, patch = some p → ¬ ReadBackFails c w p old merged) (e : TaskError) :
    Leaves c w patch e w' := by
  cases e with
  | invalidInput reason => exact h
  | notFound id => exact h
  | persistence detail => exact .same hback ⟨h.table_eq, h.gauge_eq⟩

namespace Service

variable {w w' : World} {e : TaskError}

/-- Reading a task leaves everything as it was. -/
theorem same_of_get {id : String} {result : Except TaskError Task}
    (h : run c none (get caching id) w = (some result, w')) : w.SameContents w' := by
  obtain ⟨reply, w₁, hcalled, hrun⟩ := run_perform caching c (.get id) nofun w .done
  rw [Operation.bind_done] at hrun
  obtain ⟨-, rfl⟩ := Prod.mk.inj (hrun.symm.trans h)
  exact hcalled.sameContents rfl

/-- A create that fails leaves everything as it was. -/
theorem same_of_failed_create {draft : Draft}
    (h : run c none (create caching draft) w = (some (.error e), w')) : w.SameContents w' := by
  unfold create at h
  cases htitle : normalizeTitle draft.title with
  | error refused =>
    rw [htitle] at h
    obtain ⟨-, rfl⟩ := Prod.mk.inj h
    exact .rfl
  | ok title =>
    rw [htitle] at h
    obtain ⟨reply, w₁, hcalled, hrun⟩ :=
      run_perform caching c (.create { draft with title }) nofun w _
    rw [hrun] at h
    cases reply with
    | ok task => cases (Prod.mk.inj h).1
    | error failed =>
      obtain ⟨-, rfl⟩ := Prod.mk.inj h
      exact hcalled.sameContents rfl

/-- A delete that fails leaves everything as it was. -/
theorem same_of_failed_delete {id : String}
    (h : run c none (delete caching id) w = (some (.error e), w')) : w.SameContents w' := by
  unfold delete at h
  obtain ⟨reply, w₁, hcalled, hrun⟩ := run_perform caching c (.delete id) nofun w _
  rw [hrun] at h
  rcases reply with failed | _ | _
  · obtain ⟨-, rfl⟩ := Prod.mk.inj h
    exact hcalled.sameContents rfl
  · obtain ⟨-, rfl⟩ := Prod.mk.inj h
    exact hcalled.sameContents rfl
  · cases (Prod.mk.inj h).1

/-- After its load an update fails in its write, and then everything is as it was, or in its
read-back. -/
theorem leaves_of_failed_write {p : Patch} {old merged : Task}
    {loaded : (StoreCall.get p.id).Reply} {w₁ : World} (hload : Called c (.get p.id) w loaded w₁)
    (hloads : w.nextFailure c (.get p.id) = none) (hold : w.table.get? p.id = some old)
    (hmerge : p.merge old = .ok merged) (hid : old.id = p.id)
    (h : run c none ((Caching.perform caching (.update merged)).bind fun
        | .error e => .done (.error e)
        | .ok () => Caching.perform caching (.get p.id)) w₁ = (some (.error e), w')) :
    Leaves c w (some p) e w' := by
  have hsame : w.SameContents w₁ := hload.sameContents rfl
  have hmerged : merged.id = p.id := (Patch.merge_frame hmerge).1.trans hid
  have hold₁ : w₁.table.get? merged.id = some old := by
    rw [hsame.table_eq, hmerged]
    exact hold
  obtain ⟨stored, w₂, hstore, hrun⟩ := run_perform caching c (.update merged) nofun w₁ _
  rw [hrun] at h
  rcases hstore.update_cases hold₁ with ⟨detail, hfails, rfl⟩ | ⟨hstores, rfl, htable⟩
  · -- the write fails
    obtain ⟨-, rfl⟩ := Prod.mk.inj h
    have hsame₂ : w.SameContents w₂ := hsame.trans (hstore.sameContents rfl)
    refine hsame₂.leaves (fun p' old' merged' hp hback => ?_) e
    obtain rfl := Option.some.inj hp
    obtain rfl := Option.some.inj (hback.finds.symm.trans hold)
    obtain rfl := Except.ok.inj (hback.merges.symm.trans hmerge)
    rw [World.nextFailure, hload.calls_eq, hback.stores] at hfails
    cases hfails
  · -- the result is stored, and read back
    obtain ⟨back, w₃, hback, hrun₃⟩ := run_perform caching c (.get p.id) nofun w₂ .done
    rw [Operation.bind_done] at hrun₃
    obtain ⟨herror, rfl⟩ := Prod.mk.inj (hrun₃.symm.trans h)
    have hkept : w₂.SameContents w₃ := hback.sameContents rfl
    rcases hback.get_cases with ⟨detail, hfails, rfl⟩ | ⟨-, ⟨task, -, rfl⟩ | ⟨hnone, -⟩⟩
    · cases herror
      refine LeftBroken.merged rfl ⟨hloads, hold, hmerge, ?_, ?_⟩ ?_ ?_
      · rw [World.nextFailure, hload.calls_eq] at hstores
        exact hstores
      · rw [World.nextFailure, hstore.calls_eq, hload.calls_eq] at hfails
        rw [hfails]
        rfl
      · rw [hkept.table_eq, htable, hsame.table_eq, World.now_eq hload.wall_eq,
          replaced_of_merge hmerge, mergedTable, ← hmerged]
      · exact hkept.gauge_eq.trans (hstore.gauge_eq.trans hsame.gauge_eq)
    · cases herror
    · -- what has been stored is there
      rw [htable, Keyed.get?_insert, if_pos hmerged.symm] at hnone
      cases hnone

/-- An update that fails leaves everything as it was, unless it is its read-back that fails. -/
theorem leaves_of_failed_update {p : Patch}
    (hid : ∀ task, w.table.get? p.id = some task → task.id = p.id)
    (h : run c none (update caching p) w = (some (.error e), w')) :
    Leaves c w (some p) e w' := by
  unfold update at h
  obtain ⟨loaded, w₁, hload, hrun⟩ := run_perform caching c (.get p.id) nofun w _
  rw [hrun] at h
  have hsame : w.SameContents w₁ := hload.sameContents rfl
  rcases hload.get_cases with ⟨detail, hfails, rfl⟩ | ⟨hloads, ⟨old, hold, rfl⟩ | ⟨hnone, rfl⟩⟩
  · -- the load fails
    obtain ⟨-, rfl⟩ := Prod.mk.inj h
    refine hsame.leaves (fun p' old merged hp hback => ?_) e
    obtain rfl := Option.some.inj hp
    rw [World.nextFailure, hback.loads] at hfails
    cases hfails
  · simp only at h
    cases hmerge : p.merge old with
    | error refused =>
      rw [hmerge] at h
      obtain ⟨-, rfl⟩ := Prod.mk.inj h
      refine hsame.leaves (fun p' old' merged hp hback => ?_) e
      obtain rfl := Option.some.inj hp
      obtain rfl := Option.some.inj (hback.finds.symm.trans hold)
      rw [hback.merges] at hmerge
      cases hmerge
    | ok merged =>
      rw [hmerge] at h
      exact leaves_of_failed_write hload hloads hold hmerge (hid old hold) h
  · -- there is no such task
    obtain ⟨-, rfl⟩ := Prod.mk.inj h
    refine hsame.leaves (fun p' old merged hp hback => ?_) e
    obtain rfl := Option.some.inj hp
    rw [hback.finds] at hnone
    cases hnone

/-- An update of a task that is not there is answered so, whatever its patch says. -/
theorem update_unknown {p : Patch} (hnone : w.table.get? p.id = none)
    (hloads : w.nextFailure c (.get p.id) = none) : ∃ w',
    run c none (update caching p) w = (some (.error (.notFound p.id)), w')
      ∧ w.SameContents w' := by
  unfold update
  obtain ⟨loaded, w₁, hload, hrun⟩ := run_perform caching c (.get p.id) nofun w _
  rw [hrun]
  refine ⟨w₁, ?_, hload.sameContents rfl⟩
  rcases hload.get_cases with ⟨detail, hfails, -⟩ | ⟨-, ⟨old, hold, -⟩ | ⟨-, rfl⟩⟩
  · rw [hloads] at hfails
    cases hfails
  · rw [hnone] at hold
    cases hold
  · rfl

/-- A list that fails does so with the store. -/
theorem finds_list (t : Table) (q : Query) :
    Finds c t OnlyPersistence (Caching.perform caching (.list q)) := by
  have hanswer : ∀ {r : Query} {reply : (StoreCall.list r).Reply}, Answered c t (.list r) reply →
      OnlyPersistence reply := fun h => h.onlyPersistence fun _ _ => ⟨_, rfl⟩
  cases caching with
  | none => exact .store rfl fun reply hreply => .done (hanswer hreply)
  | some g =>
    have hthrough : Finds c t OnlyPersistence (g.readThrough q.normalized) := by
      refine .store rfl fun reply hreply => ?_
      cases reply with
      | error e => exact .done (hanswer hreply)
      | ok tasks => exact .cache fun _ => .done (.ok tasks)
    refine .cache fun reply => ?_
    rcases reply with e | _ | text
    · exact hthrough
    · exact hthrough
    · simp only
      split
      · exact .done (.ok _)
      · exact hthrough

end Service

end TaskBoard
