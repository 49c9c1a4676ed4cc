import TaskBoard.Proofs.Service.SideBySide
import TaskBoard.Run.Probe

/-!
# What becomes of two updates of one task

If one of two updates has stored its result before the other loads the task, the task ends up with
both patches. If both load the task first, the one that stores later undoes the other.

* `exists_in_order`, `exists_undone`: both happen, whatever the task and the patches are;
* `patches_of_updates`: the task after both updates have been answered.
-/

namespace TaskBoard.Service

open Run

variable {patch : Caller → Patch} {task : Task} {c : Conditions} {w : World} {p : Pool Updated}
  {r : Caller} {trace : List (Event Updated)}

/-! ## Interleavings

For every stored task and every two patches that are not refused there are interleavings of both
kinds. -/

/-- A caller has loaded the task and has yet to store what it has made of it. -/
def holding (patch : Caller → Patch) (r : Caller) (made : Task) (time : Nat) : Job Updated :=
  ⟨r, .store (.update made) (afterStore (patch r)), time⟩

/-- What is seen of an update after it has loaded the task. -/
def rest (patch : Caller → Patch) (r : Caller) (made stored : Task) (time : Nat) :
    List (Event Updated) :=
  [.store r (.update made) (.ok ()) time, .store r (.get (patch r).id) (.ok stored) time,
    .ends r (.ok stored)]

theorem ends_mem_rest {made stored : Task} {time : Nat} :
    Event.ends r (.ok stored) ∈ rest patch r made stored time := by
  simp [rest]

section Parts

variable {l js : List (Job Updated)} {since : Nat} {t made : Task}

/-- An update loads the task. -/
theorem step_load (hget : w.table.get? (patch r).id = some t)
    (hmerge : (patch r).merge t = .ok made) :
    Step (updates patch) c ⟨w, l ++ starting patch r since :: js⟩
      (.store r (.get (patch r).id) (.ok t) w.timer)
      ⟨w, l ++ holding patch r made w.timer :: js⟩ := by
  have hanswer : StoreAnswers c (.get (patch r).id) w _ _ := .performs
  rw [performStore_get hget] at hanswer
  have hstep : Step (updates patch) c
      ⟨w, l ++ ⟨r, .store (.get (patch r).id) (afterLoad (patch r)), since⟩ :: js⟩ _ _ :=
    .store hanswer
  simp only [afterLoad, hmerge] at hstep
  unfold starting updates
  rw [update_eq]
  exact hstep

/-- An update that has loaded the task comes to its end. -/
theorem runs_rest (hid : made.id = (patch r).id) (hget : w.table.get? (patch r).id = some t) :
    Runs (updates patch) c nobodyElse ⟨w, l ++ holding patch r made since :: js⟩
      (rest patch r made (t.replaced made w.now) w.timer) ⟨updated w t made, l ++ js⟩ := by
  have hupdate : StoreAnswers c (.update made) w _ _ := .performs
  rw [← hid] at hget
  rw [performStore_update hget] at hupdate
  have hread : StoreAnswers c (.get (patch r).id) (updated w t made) _ _ := .performs
  rw [performStore_get (get?_updated hid)] at hread
  exact ((Runs.single trivial (.store hupdate)).snoc trivial (.store hread)).snoc trivial .ends

end Parts

section Orders

variable {alone : Caller → Task} (hid : ∀ r, (patch r).id = task.id)
  (halone : ∀ r, (patch r).merge task = .ok (alone r))
  (hstored : w.table.get? task.id = some task)

include hid halone hstored

/-- The second update may load the task after the first one has stored its result. -/
theorem exists_in_order :
    ∃ trace p, Runs (updates patch) c nobodyElse (sideBySide patch w) trace p
      ∧ (∀ r, ∃ t, Event.ends r (.ok t) ∈ trace)
      ∧ Precedes (Stores .first) (Loads .second) trace := by
  have hget : w.table.get? (patch .first).id = some task := by
    rw [hid]
    exact hstored
  have hfirst : (alone .first).id = task.id := (Patch.merge_frame (halone .first)).1
  have hget' : (updated w task (alone .first)).table.get? (patch .second).id
      = some (task.replaced (alone .first) w.now) :=
    get?_updated (hfirst.trans (hid .second).symm)
  obtain ⟨both, hboth⟩ := Patch.exists_merge (halone .second) (task.replaced (alone .first) w.now)
  have hsecond : both.id = task.id := (Patch.merge_frame hboth).1
  have hload : Step (updates patch) c (sideBySide patch w) _
      ⟨w, [holding patch .first (alone .first) w.timer, starting patch .second w.timer]⟩ :=
    step_load (l := []) hget (halone .first)
  have hrest : Runs (updates patch) c nobodyElse
      ⟨w, [holding patch .first (alone .first) w.timer, starting patch .second w.timer]⟩ _
      ⟨updated w task (alone .first), [starting patch .second w.timer]⟩ :=
    runs_rest (l := []) (hfirst.trans (hid .first).symm) hget
  have hload' : Step (updates patch) c
      ⟨updated w task (alone .first), [starting patch .second w.timer]⟩ _
      ⟨updated w task (alone .first), [holding patch .second both w.timer]⟩ :=
    step_load (l := []) hget' hboth
  have hrest' : Runs (updates patch) c nobodyElse
      ⟨updated w task (alone .first), [holding patch .second both w.timer]⟩ _ ⟨_, []⟩ :=
    runs_rest (l := []) (hsecond.trans (hid .second).symm) hget'
  have hrun := (((Runs.single trivial hload).trans hrest).trans (.single (by trivial) hload')).trans
    hrest'
  refine ⟨_, _, hrun, fun r => ?_, ?_⟩
  · cases r with
    | first =>
      exact ⟨_, List.mem_append_left _ (List.mem_append_left _
        (List.mem_append_right _ ends_mem_rest))⟩
    | second => exact ⟨_, List.mem_append_right _ ends_mem_rest⟩
  · -- before the second caller has begun
    refine ⟨_, _, List.append_assoc _ _ _,
      ⟨_, List.mem_append_right _ List.mem_cons_self, .mk (alone .first) _⟩, ?_⟩
    rintro ⟨e, he, hloads⟩
    cases hloads
    simp [rest] at he

/-- Both updates may load the task before either stores its result. Then the one that stores first
is undone. -/
theorem exists_undone :
    ∃ trace p, Runs (updates patch) c nobodyElse (sideBySide patch w) trace p
      ∧ (∀ r, ∃ t, Event.ends r (.ok t) ∈ trace)
      ∧ ∃ now, p.world.table.get? task.id = some (task.replaced (alone .first) now) := by
  have hids : ∀ r, (alone r).id = task.id := fun r => (Patch.merge_frame (halone r)).1
  have hget : ∀ r, w.table.get? (patch r).id = some task := by
    intro r
    rw [hid]
    exact hstored
  have hget' : (updated w task (alone .second)).table.get? (patch .first).id
      = some (task.replaced (alone .second) w.now) :=
    get?_updated ((hids .second).trans (hid .first).symm)
  have hload : Step (updates patch) c (sideBySide patch w) _
      ⟨w, [holding patch .first (alone .first) w.timer, starting patch .second w.timer]⟩ :=
    step_load (l := []) (hget .first) (halone .first)
  have hload' : Step (updates patch) c
      ⟨w, [holding patch .first (alone .first) w.timer, starting patch .second w.timer]⟩ _
      ⟨w, [holding patch .first (alone .first) w.timer,
        holding patch .second (alone .second) w.timer]⟩ :=
    step_load (l := [_]) (hget .second) (halone .second)
  have hrest : Runs (updates patch) c nobodyElse
      ⟨w, [holding patch .first (alone .first) w.timer,
        holding patch .second (alone .second) w.timer]⟩ _
      ⟨updated w task (alone .second), [holding patch .first (alone .first) w.timer]⟩ :=
    runs_rest (l := [_]) ((hids .second).trans (hid .second).symm) (hget .second)
  have hrest' : Runs (updates patch) c nobodyElse
      ⟨updated w task (alone .second), [holding patch .first (alone .first) w.timer]⟩ _ ⟨_, []⟩ :=
    runs_rest (l := []) ((hids .first).trans (hid .first).symm) hget'
  have hrun := (((Runs.single trivial hload).snoc trivial hload').trans hrest).trans hrest'
  refine ⟨_, _, hrun, fun r => ?_, _, get?_updated (hids .first)⟩
  cases r with
  | first => exact ⟨_, List.mem_append_right _ ends_mem_rest⟩
  | second => exact ⟨_, List.mem_append_left _ (List.mem_append_right _ ends_mem_rest)⟩

end Orders

/-! ## After both updates -/

/-- The task has the fields of both patches, and all others but the time of the update as they
were. -/
structure Carries (patch : Caller → Patch) (task t : Task) : Prop where
  touched : ∀ r, ∃ alone, (patch r).merge task = .ok alone
    ∧ ∀ f, (patch r).touches f = true → f.Same t alone
  untouched : ∀ f, (∀ r, (patch r).touches f = false) → f.Same t task
  id_eq : t.id = task.id
  createdAt_eq : t.createdAt = task.createdAt

/-- One patch after the other gives the fields of both. -/
theorem carries_of_merge {alone made : Task} {now now' : Instant}
    (hdisjoint : ∀ f, (patch .first).touches f = false ∨ (patch .second).touches f = false)
    (halone : (patch r.other).merge task = .ok alone)
    (hmerge : (patch r).merge (task.replaced alone now) = .ok made) :
    Carries patch task (task.replaced made now') := by
  have hmade : ∀ f, TaskField.Same f (task.replaced made now') made :=
    fun f => f.same_replaced task made now'
  have hkept : ∀ f, (patch r).touches f = false → f.Same (task.replaced made now') alone := by
    intro f hf
    have hloaded := Patch.same_of_untouched hmerge hf
    exact ((hmade f).trans hloaded).trans (f.same_replaced task alone now)
  refine ⟨fun s => ?_, fun f hf => ?_, rfl, rfl⟩
  · rcases r.eq_or_eq_other s with rfl | rfl
    · obtain ⟨own, hown⟩ := Patch.exists_merge hmerge task
      exact ⟨own, hown, fun f hf => (hmade f).trans (Patch.same_of_touched hmerge hown hf)⟩
    · refine ⟨alone, halone, fun f hf => hkept f ?_⟩
      cases r with
      | first => exact (hdisjoint f).resolve_right (by simpa [Caller.other] using hf)
      | second => exact (hdisjoint f).resolve_left (by simpa [Caller.other] using hf)
  · exact (hkept f (hf r)).trans (Patch.same_of_untouched halone (hf r.other))

/-- Two updates of a stored task with patches for different fields have both been answered with a
task. If one of them has stored its result before the other has loaded the task, the stored task has
the fields of both patches. Otherwise it has the fields of the patch that has been stored last and
nothing of the other one. -/
theorem patches_of_updates (hid : ∀ r, (patch r).id = task.id)
    (hdisjoint : ∀ f, (patch .first).touches f = false ∨ (patch .second).touches f = false)
    (hstored : w.table.get? task.id = some task)
    (hrun : Runs (updates patch) c nobodyElse (sideBySide patch w) trace p)
    (hok : ∀ r, ∃ t, Event.ends r (.ok t) ∈ trace) :
    ∃ t, p.world.table.get? task.id = some t
      ∧ ((∃ r, Precedes (Stores r) (Loads r.other) trace) → Carries patch task t)
      ∧ ((∀ r, ¬ Precedes (Stores r) (Loads r.other) trace) →
        ∃ r alone now, Precedes (Stores r.other) (Stores r) trace
          ∧ (patch r).merge task = .ok alone ∧ t = task.replaced alone now) := by
  have hinv := sideBySide_run hid hstored hrun
  have hboth : ∀ r, Happened (Stores r) trace := by
    intro r
    obtain ⟨t, hends⟩ := hok r
    exact hinv.ended r t hends
  obtain ⟨t, hget, ht⟩ := hinv.current
  refine ⟨t, hget, ?_⟩
  cases ht with
  | original hstores => exact absurd (hboth .first) (hstores .first)
  | @result r made now _ hmade hother =>
    obtain ⟨hlast, hnot⟩ := hother (hboth r.other)
    obtain ⟨-, loaded, hmerge, hfrom⟩ := hmade
    constructor
    · -- the one that has stored first is the other, and this one has loaded what it stored
      rintro ⟨s, hs⟩
      rcases r.eq_or_eq_other s with rfl | rfl
      · exact absurd hs hnot
      · rw [Caller.other_other] at hs
        rcases hfrom with ⟨-, hfirst⟩ | ⟨-, alone, now', halone, rfl⟩
        · exact absurd hs hfirst
        · exact carries_of_merge hdisjoint halone hmerge
    · -- this one has loaded the original task
      intro hoverlap
      rcases hfrom with ⟨rfl, -⟩ | ⟨hafter, -⟩
      · exact ⟨r, made, now, hlast, hmerge, rfl⟩
      · have hnone := hoverlap r.other
        rw [Caller.other_other] at hnone
        exact absurd hafter hnone

/-- A stored task. -/
def oldTask : Task := (Draft.titled "old").toTask "t" ({} : World).now

/-- A world with one stored task. -/
def storing (t : Task) : World := { table := Keyed.empty.insert t.id t }

/-- One caller gives the task a title, the other completes it. -/
def renameAndComplete : Caller → Patch
  | .first => { id := "t", title := some "new" }
  | .second => { id := "t", completed := some true }

theorem id_renameAndComplete (r : Caller) : (renameAndComplete r).id = oldTask.id := by
  cases r <;> rfl

theorem disjoint_renameAndComplete (f : TaskField) :
    (renameAndComplete .first).touches f = false
      ∨ (renameAndComplete .second).touches f = false := by
  cases f <;> decide

/-- What each of the two makes of the task by itself. -/
def renamedOrCompleted : Caller → Task
  | .first => { oldTask with title := "new" }
  | .second => { oldTask with completed := true }

theorem merge_renameAndComplete (r : Caller) :
    (renameAndComplete r).merge oldTask = .ok (renamedOrCompleted r) := by
  cases r with
  | first =>
    have htrimmed : Text.trimmed "new" = "new" := by decide +kernel
    have hempty : "new".isEmpty = false := by decide +kernel
    refine Patch.merge_eq_ok_iff.2 ⟨"new", ?_, rfl⟩
    simp [Patch.newTitle, renameAndComplete, normalizeTitle, htrimmed, hempty]
  | second => rfl

theorem get?_storing (t : Task) : (storing t).table.get? t.id = some t := by
  simp [storing]

/-- The task is completed after it has been given the title. -/
theorem patches_of_updates_in_order :
    ∃ trace p t, Runs (updates renameAndComplete) (Probe.conditions {}) nobodyElse
        (sideBySide renameAndComplete (storing oldTask)) trace p
      ∧ p.world.table.get? oldTask.id = some t ∧ Carries renameAndComplete oldTask t := by
  obtain ⟨trace, p, hrun, hok, horder⟩ :=
    exists_in_order id_renameAndComplete merge_renameAndComplete (get?_storing oldTask)
  obtain ⟨t, hget, hkept, -⟩ := patches_of_updates id_renameAndComplete disjoint_renameAndComplete
    (get?_storing oldTask) hrun hok
  exact ⟨trace, p, t, hrun, hget, hkept ⟨.first, horder⟩⟩

/-- It is not so that two updates with patches for different fields always leave the fields of
both: the task is completed and given a title, and is not completed afterwards. -/
theorem not_always_carries :
    ¬ ∀ (patch : Caller → Patch) (task : Task) (c : Conditions) (w : World)
      (trace : List (Event Updated)) (p : Pool Updated), (∀ r, (patch r).id = task.id) →
      (∀ f, (patch .first).touches f = false ∨ (patch .second).touches f = false) →
      (∀ r raw, (patch r).title = some raw → Text.trimmed raw ≠ "") →
      w.table.get? task.id = some task →
      Runs (updates patch) c nobodyElse (sideBySide patch w) trace p →
      (∀ r, ∃ t, Event.ends r (.ok t) ∈ trace) →
      ∃ t, p.world.table.get? task.id = some t ∧ Carries patch task t := by
  intro hall
  obtain ⟨trace, p, hrun, hok, now, hget⟩ :=
    exists_undone (c := Probe.conditions {}) id_renameAndComplete merge_renameAndComplete
      (get?_storing oldTask)
  have htitles : ∀ r raw, (renameAndComplete r).title = some raw → Text.trimmed raw ≠ "" := by
    intro r raw hraw
    cases r with
    | first =>
      obtain rfl := Option.some.inj hraw
      decide +kernel
    | second => cases hraw
  obtain ⟨t, hget', hcarries⟩ := hall _ _ _ _ _ _ id_renameAndComplete disjoint_renameAndComplete
    htitles (get?_storing oldTask) hrun hok
  -- what is stored is the renamed task, which is not completed
  obtain ⟨alone, halone, hfields⟩ := hcarries.touched .second
  obtain rfl := Option.some.inj (hget.symm.trans hget')
  obtain rfl := Except.ok.inj ((merge_renameAndComplete .second).symm.trans halone)
  have hcompleted : false = true := hfields .completed rfl
  cases hcompleted

end TaskBoard.Service
