import TaskBoard.Proofs.Run.Drive
import TaskBoard.Proofs.Run.World

/-!
# Runs that end before their deadline

A deadline that an operation does not reach might as well not be there.

* `run_map`: replacing the value of an operation changes nothing else about its run;
* `exists_run`: without a deadline every run has a value;
* `run_before`: a run that ends before the deadline is the run without one;
* `run_of_value`: so is a run that has a value.
-/

namespace TaskBoard.Run

variable {α β : Type} {c : Conditions} {deadline : Option Nat}

/-- Replacing the value of an operation changes nothing else about its run. -/
theorem run_map (f : α → β) (op : Operation α) (w : World) :
    run c deadline (op.map f) w
      = ((run c deadline op w).1.map f, (run c deadline op w).2) := by
  induction op generalizing w with
  | done a => rfl
  | gauge change next ih => exact ih (w.changeGauge change)
  | store call next ih =>
    simp only [Operation.map, Operation.bind, run]
    cases (w.noteStore c call).2.pause deadline (w.noteStore c call).1.delay with
    | mk inTime w' =>
      cases inTime with
      | false => rfl
      | true => exact ih _ _
  | cache limit call next ih =>
    simp only [Operation.map, Operation.bind, run]
    cases (w.noteCache c call).2.pause deadline ((w.noteCache c call).1.limited limit).1 with
    | mk inTime w' =>
      cases inTime with
      | false => rfl
      | true => exact ih _ _

/-- Without a deadline every run has a value. -/
theorem exists_run (c : Conditions) (op : Operation α) (w : World) :
    ∃ a, (run c none op w).1 = some a := by
  induction op generalizing w with
  | done a => exact ⟨a, rfl⟩
  | gauge change next ih => exact ih (w.changeGauge change)
  | store call next ih =>
    rw [run_store]
    exact ih _ _
  | cache limit call next ih =>
    rw [run_cache]
    exact ih _ _

/-! ## The timer -/

theorem World.timer_storeCall (call : StoreCall) (w : World) :
    (w.storeCall c call).2.timer = w.timer + (c.store w.storeCalls.length call).delay := by
  simp [storeCall, noteStore]

theorem World.timer_cacheCall (limit : Nat) (call : CacheCall) (w : World) :
    (w.cacheCall c limit call).2.timer
      = w.timer + ((c.cache w.cacheCalls.length call).limited limit).1 := by
  simp [cacheCall, noteCache]

/-- No run sets the timer back. -/
theorem timer_le_run (c : Conditions) (op : Operation α) (w : World) :
    w.timer ≤ (run c none op w).2.timer := by
  induction op generalizing w with
  | done a => exact Nat.le_refl _
  | gauge change next ih => exact ih (w.changeGauge change)
  | store call next ih =>
    have hrest := ih (w.storeCall c call).1 (w.storeCall c call).2
    rw [World.timer_storeCall] at hrest
    rw [run_store]
    omega
  | cache limit call next ih =>
    have hrest := ih (w.cacheCall c limit call).1 (w.cacheCall c limit call).2
    rw [World.timer_cacheCall] at hrest
    rw [run_cache]
    omega

/-- A pause that ends before the deadline is one without a deadline. -/
theorem World.pause_before {d delay : Nat} {w : World} (h : w.timer + delay < d) :
    w.pause (some d) delay = w.pause none delay := by
  unfold pause waitUntil
  by_cases hzero : delay = 0
  · rw [if_pos hzero, if_pos hzero]
  · rw [if_neg hzero, if_neg hzero]
    exact if_neg (Nat.not_le.2 h)

/-- A run that ends before the deadline is the run without one. -/
theorem run_before {d : Nat} (op : Operation α) {w : World}
    (h : (run c none op w).2.timer < d) : run c (some d) op w = run c none op w := by
  induction op generalizing w with
  | done a => rfl
  | gauge change next ih => exact ih h
  | store call next ih =>
    rw [run_store] at h
    -- the call is over before the rest, and the rest ends in time
    have hover := timer_le_run c (next (w.storeCall c call).1) (w.storeCall c call).2
    rw [World.timer_storeCall] at hover
    have hpause : (w.noteStore c call).2.pause (some d) (w.noteStore c call).1.delay
        = (w.noteStore c call).2.pause none (w.noteStore c call).1.delay :=
      World.pause_before (Nat.lt_of_le_of_lt hover h)
    rw [run_store, ← ih _ h]
    simp only [run, hpause, World.pause_none, World.storeCall]
  | cache limit call next ih =>
    rw [run_cache] at h
    have hover := timer_le_run c (next (w.cacheCall c limit call).1) (w.cacheCall c limit call).2
    rw [World.timer_cacheCall] at hover
    have hpause : (w.noteCache c call).2.pause (some d) ((w.noteCache c call).1.limited limit).1
        = (w.noteCache c call).2.pause none ((w.noteCache c call).1.limited limit).1 :=
      World.pause_before (Nat.lt_of_le_of_lt hover h)
    rw [run_cache, ← ih _ h]
    simp only [run, hpause, World.pause_none, World.cacheCall]

/-- A pause that is not cut off is one without a deadline. -/
theorem World.pause_of_true {delay : Nat} {w w' : World}
    (h : w.pause deadline delay = (true, w')) : w.pause none delay = (true, w') := by
  rw [← h]
  unfold pause waitUntil at h ⊢
  by_cases hzero : delay = 0
  · rw [if_pos hzero, if_pos hzero]
  · rw [if_neg hzero] at h ⊢
    rw [if_neg hzero]
    cases deadline with
    | none => rfl
    | some d =>
      by_cases hcut : d ≤ w.timer + delay
      · simp [hcut] at h
      · exact (if_neg hcut).symm

/-- A run that has a value is the run without a deadline. -/
theorem run_of_value {op : Operation α} {a : α} {w w' : World}
    (h : run c deadline op w = (some a, w')) : run c none op w = (some a, w') := by
  induction op generalizing w with
  | done b => exact h
  | gauge change next ih => exact ih h
  | store call next ih =>
    unfold run at h ⊢
    simp only at h ⊢
    rcases hpause : (w.noteStore c call).2.pause deadline (w.noteStore c call).1.delay
      with ⟨_ | _, w₁⟩
    · rw [hpause] at h
      cases (Prod.mk.inj h).1
    · rw [hpause] at h
      rw [World.pause_of_true hpause]
      exact ih _ h
  | cache limit call next ih =>
    unfold run at h ⊢
    simp only at h ⊢
    rcases hpause : (w.noteCache c call).2.pause deadline ((w.noteCache c call).1.limited limit).1
      with ⟨_ | _, w₁⟩
    · rw [hpause] at h
      cases (Prod.mk.inj h).1
    · rw [hpause] at h
      rw [World.pause_of_true hpause]
      exact ih _ h

end TaskBoard.Run
