import TaskBoard.Proofs.Store.Table
import TaskBoard.Run.Single

/-!
# What the steps of a run leave as it is

Waiting moves the timer only, cache calls change the cache only, and store calls leave the gauge to
the operation that makes them.

* `SameTasks`: neither the stored tasks nor the gauge have changed;
* `SameHoldings`: nothing has changed that is kept for later;
* `growth_endStore`: by how much a store call changes the number of stored tasks.
-/

namespace TaskBoard.Run

variable {c : Conditions}

/-- How far the gauge is ahead of the number of stored tasks, as a number of 64 bits. -/
def World.drift (w : World) : Int64 := w.gauge - Int64.ofNat w.table.size

/-- By how much the number of stored tasks has grown. -/
def World.growth (w w' : World) : Int := w'.table.size - w.table.size

/-- Tasks and gauge are as they were. -/
def World.SameTasks (w w' : World) : Prop := w'.table = w.table ∧ w'.gauge = w.gauge

/-- Tasks, gauge, cached lists and the number of generated ids are as they were. -/
structure World.SameHoldings (w w' : World) : Prop where
  table_eq : w'.table = w.table
  gauge_eq : w'.gauge = w.gauge
  cache_eq : w'.cache = w.cache
  ids_eq : w'.ids = w.ids

namespace World

@[simp] theorem timer_endStore (call : StoreCall) (failure : Option String) (w : World) :
    (w.endStore c call failure).2.timer = w.timer := by
  cases failure <;> rfl

@[simp] theorem timer_endCache (call : CacheCall) (failure : Option CacheError) (w : World) :
    (w.endCache call failure).2.timer = w.timer := by
  cases failure <;> rfl

/-- A call that only reads leaves the stored tasks as they are. -/
theorem table_performStore {call : StoreCall} (hcall : call.writes = false) (w : World) :
    (w.performStore c call).2.table = w.table :=
  Table.perform_of_reads hcall w.table

theorem SameTasks.rfl {w : World} : w.SameTasks w := ⟨Eq.refl _, Eq.refl _⟩

theorem SameTasks.trans {w w' w'' : World} (h : w.SameTasks w') (h' : w'.SameTasks w'') :
    w.SameTasks w'' :=
  ⟨h'.1.trans h.1, h'.2.trans h.2⟩

theorem SameHoldings.rfl {w : World} : w.SameHoldings w :=
  ⟨Eq.refl _, Eq.refl _, Eq.refl _, Eq.refl _⟩

theorem SameHoldings.trans {w w' w'' : World} (h : w.SameHoldings w') (h' : w'.SameHoldings w'') :
    w.SameHoldings w'' :=
  ⟨h'.table_eq.trans h.table_eq, h'.gauge_eq.trans h.gauge_eq, h'.cache_eq.trans h.cache_eq,
    h'.ids_eq.trans h.ids_eq⟩

theorem SameHoldings.sameTasks {w w' : World} (h : w.SameHoldings w') : w.SameTasks w' :=
  ⟨h.table_eq, h.gauge_eq⟩

/-- To note a call is to do nothing. -/
theorem sameHoldings_noteStore (call : StoreCall) (w : World) :
    w.SameHoldings (w.noteStore c call).2 :=
  ⟨Eq.refl _, Eq.refl _, Eq.refl _, Eq.refl _⟩

theorem sameHoldings_noteCache (call : CacheCall) (w : World) :
    w.SameHoldings (w.noteCache c call).2 :=
  ⟨Eq.refl _, Eq.refl _, Eq.refl _, Eq.refl _⟩

theorem sameHoldings_waitUntil (deadline : Option Nat) (time : Nat) (w : World) :
    w.SameHoldings (w.waitUntil deadline time).2 := by
  unfold waitUntil
  cases deadline with
  | none => exact ⟨Eq.refl _, Eq.refl _, Eq.refl _, Eq.refl _⟩
  | some d =>
    by_cases hcut : d ≤ time
    · simp only [hcut, if_true]
      exact ⟨Eq.refl _, Eq.refl _, Eq.refl _, Eq.refl _⟩
    · simp only [hcut, if_false]
      exact ⟨Eq.refl _, Eq.refl _, Eq.refl _, Eq.refl _⟩

theorem sameHoldings_pause (deadline : Option Nat) (delay : Nat) (w : World) :
    w.SameHoldings (w.pause deadline delay).2 := by
  unfold pause
  by_cases hzero : delay = 0
  · rw [if_pos hzero]
    exact .rfl
  · rw [if_neg hzero]
    exact sameHoldings_waitUntil deadline _ w

theorem sameTasks_endCache (call : CacheCall) (failure : Option CacheError) (w : World) :
    w.SameTasks (w.endCache call failure).2 := by
  cases failure with
  | none => exact .rfl
  | some e => exact .rfl

/-- A store call that only reads changes nothing. -/
theorem sameHoldings_endStore {call : StoreCall} (hcall : call.writes = false)
    (failure : Option String) (w : World) : w.SameHoldings (w.endStore c call failure).2 := by
  cases failure with
  | some detail => exact .rfl
  | none =>
    have hid : takesId call = false := by
      cases call with
      | create draft => cases hcall
      | _ => rfl
    have hids : (w.performStore c call).2.ids = w.ids := by
      simp only [performStore, hid, Bool.false_eq_true, if_false]
    exact ⟨table_performStore hcall w, Eq.refl _, Eq.refl _, hids⟩

/-- A store call leaves the gauge as it is, and changes the number of tasks as its answer tells. -/
theorem growth_endStore (call : StoreCall) (failure : Option String) (w : World) :
    (w.endStore c call failure).2.gauge = w.gauge
      ∧ w.growth (w.endStore c call failure).2
        = call.sizeChange (w.endStore c call failure).1 := by
  cases failure with
  | some detail =>
    refine ⟨Eq.refl _, ?_⟩
    simp [endStore, growth, StoreCall.sizeChange_error]
  | none =>
    have hsize := Table.size_perform w.now (c.id w.ids) call w.table
    refine ⟨Eq.refl _, ?_⟩
    simp only [endStore, performStore, growth]
    omega

end World

end TaskBoard.Run
