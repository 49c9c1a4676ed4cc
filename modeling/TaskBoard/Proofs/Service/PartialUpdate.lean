import TaskBoard.Proofs.Instant.Order
import TaskBoard.Proofs.Service.Failure
import TaskBoard.Proofs.Task.Title
import TaskBoard.Run.Probe
import TaskBoard.Task.Request

/-!
# What a partial update does

A request to update says of each field that it stays, that it is emptied or what it becomes, and
each field has its own rules for an empty text. On its way to the stored task it becomes a patch, is
merged onto the task, and the result is stored.

* `UpdateRequest.merge_toPatch_of_blank`, `UpdateRequest.merge_toPatch`: what a request does to a
  task, field by field;
* `Service.run_update_refused`, `Service.run_update_flushed`: what an update does to the store and to
  the cached lists;
* `Service.update_reflects`: the two together.
-/

namespace TaskBoard

/-! ## A request and a task -/

namespace UpdateRequest

/-- The request has a title, and it is nothing but blanks. -/
def BlankTitle (r : UpdateRequest) : Prop :=
  ∃ raw, r.title = some raw ∧ raw ≠ "" ∧ ∀ c ∈ raw.toList, Text.isBlank c = true

/-- What a request makes of a task at a time. -/
structure Reflects (r : UpdateRequest) (now : Instant) (t t' : Task) : Prop where
  id_eq : t'.id = t.id
  title_eq : t'.title = match r.title with
    | none => t.title
    | some raw => if raw = "" then t.title else Text.trimmed raw
  description_eq : t'.description = match r.description with
    | .keep => t.description
    | .clear => none
    | .set text => if text = "" then none else some text
  assignee_eq : t'.assignee = match r.assignee with
    | .keep => t.assignee
    | .clear => none
    | .set name => if name = "" then t.assignee else some name
  completed_eq : t'.completed = match r.completed with
    | none => t.completed
    | some completed => completed
  dueDate_eq : t'.dueDate = match r.dueDate with
    | .keep => t.dueDate
    | .clear => none
    | .set due => some due.toMicros
  createdAt_eq : t'.createdAt = t.createdAt
  updatedAt_eq : t'.updatedAt = if now.notAfter t.createdAt then t.createdAt else now

variable {r : UpdateRequest} {t : Task} {id : String}

/-- A request with a blank title is refused. -/
theorem merge_toPatch_of_blank (h : r.BlankTitle) (id : String) (t : Task) :
    (r.toPatch id).merge t = .error (.invalidInput "title must not be empty") := by
  obtain ⟨raw, htitle, hne, hblank⟩ := h
  have hempty : raw.isEmpty = false := String.isEmpty_eq_false_iff.2 hne
  have hnew : (r.toPatch id).newTitle t.title
      = .error (.invalidInput "title must not be empty") := by
    rw [Patch.newTitle, toPatch, htitle]
    simp only [hempty, Bool.false_eq_true, if_false]
    exact normalizeTitle_of_blank hblank
  rw [Patch.merge, hnew]
  rfl

/-- The title of a task after a request whose title is not blank. -/
theorem newTitle_toPatch (h : ¬ r.BlankTitle) (id old : String) :
    (r.toPatch id).newTitle old = .ok (match r.title with
      | none => old
      | some raw => if raw = "" then old else Text.trimmed raw) := by
  rw [Patch.newTitle, toPatch]
  cases htitle : r.title with
  | none => rfl
  | some raw =>
    by_cases hempty : raw = ""
    · subst hempty
      rfl
    · have hfalse : raw.isEmpty = false := String.isEmpty_eq_false_iff.2 hempty
      simp only [hfalse, Bool.false_eq_true, if_false, if_neg hempty]
      exact normalizeTitle_of_not_blank fun hblank => h ⟨raw, htitle, hempty, hblank⟩

/-- An empty text empties a field. -/
theorem apply_emptyAsClear (change : Change String) (old : Option String) :
    change.emptyAsClear.apply old = match change with
      | .keep => old
      | .clear => none
      | .set text => if text = "" then none else some text := by
  cases change with
  | keep => rfl
  | clear => rfl
  | set text => by_cases hempty : text = "" <;> simp [Change.emptyAsClear, hempty]

/-- An empty text leaves a field. -/
theorem apply_emptyAsKeep (change : Change String) (old : Option String) :
    change.emptyAsKeep.apply old = match change with
      | .keep => old
      | .clear => none
      | .set name => if name = "" then old else some name := by
  cases change with
  | keep => rfl
  | clear => rfl
  | set name => by_cases hempty : name = "" <;> simp [Change.emptyAsKeep, hempty]

/-- An instant is taken to the microsecond twice, which is as good as once. -/
theorem apply_toMicros (change : Change Instant) (old : Option Instant) :
    ((change.map Instant.toMicros).map Instant.toMicros).apply old = match change with
      | .keep => old
      | .clear => none
      | .set due => some due.toMicros := by
  cases change with
  | keep => rfl
  | clear => rfl
  | set due =>
    exact congrArg some (Instant.toMicros_eq_iff.2 (Instant.inMicros_toMicros due))

/-- What the other requests make of a task, once it is stored. -/
theorem merge_toPatch (h : ¬ r.BlankTitle) (id : String) (t : Task) (now : Instant) :
    ∃ merged, (r.toPatch id).merge t = .ok merged
      ∧ r.Reflects now t (t.replaced merged now) := by
  refine ⟨_, Patch.merge_eq_ok_iff.2 ⟨_, newTitle_toPatch h id t.title, rfl⟩, ?_⟩
  -- a store takes the five fields over, and keeps the id and the time of the creation
  constructor
  case title_eq => rfl
  case description_eq => exact apply_emptyAsClear r.description t.description
  case assignee_eq => exact apply_emptyAsKeep r.assignee t.assignee
  case completed_eq =>
    show r.completed.getD t.completed = _
    cases r.completed <;> rfl
  case dueDate_eq => exact apply_toMicros r.dueDate t.dueDate
  all_goals rfl

end UpdateRequest

/-! ## An update of a stored task -/

section Reliable

open Run

variable {c : Conditions} {w w' : World}

/-- Where no store call fails, a task that is there is read. -/
theorem Called.get_eq (hc : c.Reliable) {id : String} {task : Task}
    (hget : w.table.get? id = some task) {reply : (StoreCall.get id).Reply}
    (h : Called c (.get id) w reply w') : reply = .ok task := by
  rcases h.get_cases with ⟨detail, hfails, -⟩ | ⟨-, ⟨task', htask', rfl⟩ | ⟨hnone, -⟩⟩
  · rw [World.nextFailure, hc] at hfails
    cases hfails
  · rw [Option.some.inj (htask'.symm.trans hget)]
  · rw [hget] at hnone
    cases hnone

/-- Where no store call fails, a task that is there is replaced. -/
theorem Called.update_eq (hc : c.Reliable) {task old : Task}
    (hold : w.table.get? task.id = some old) {reply : (StoreCall.update task).Reply}
    (h : Called c (.update task) w reply w') :
    reply = .ok () ∧ w'.table = w.table.insert task.id (old.replaced task w.now) := by
  rcases h.update_cases hold with ⟨detail, hfails, -⟩ | ⟨-, hreply, htable⟩
  · rw [World.nextFailure, hc] at hfails
    cases hfails
  · exact ⟨hreply, htable⟩

end Reliable

namespace Service

open Run

variable {caching : Option Caching} {c : Conditions} {w : World} {p : Patch} {old : Task}

/-- An update that is refused leaves everything as it was. -/
theorem run_update_refused (hc : c.Reliable) (hold : w.table.get? p.id = some old) {e : TaskError}
    (hmerge : p.merge old = .error e) :
    ∃ w', run c none (update caching p) w = (some (.error e), w') ∧ w.SameContents w' := by
  unfold update
  obtain ⟨loaded, w₁, hload, hrun⟩ := run_perform caching c (.get p.id) nofun w _
  rw [hrun, hload.get_eq hc hold]
  simp only [hmerge]
  exact ⟨w₁, rfl, hload.sameContents rfl⟩

/-- An update that is not refused stores the merged task, drops the cached lists if its flush goes
well, and returns what is then stored. -/
theorem run_update_flushed (hc : c.Reliable) (hold : w.table.get? p.id = some old)
    (hid : old.id = p.id) {merged : Task} (hmerge : p.merge old = .ok merged) :
    ∃ w', run c none (update caching p) w = (some (.ok (old.replaced merged w.now)), w')
      ∧ w'.table = w.table.insert p.id (old.replaced merged w.now) ∧ w'.gauge = w.gauge
      ∧ ∀ g, caching = some g → c.CacheReliable g → Caching.NoLists w'.cache := by
  have hmerged : merged.id = p.id := (Patch.merge_frame hmerge).1.trans hid
  unfold update
  -- the task is loaded and merged
  obtain ⟨loaded, w₁, hload, hrun₁⟩ := run_perform caching c (.get p.id) nofun w _
  have hsame : w.SameContents w₁ := hload.sameContents rfl
  rw [hrun₁, hload.get_eq hc hold]
  simp only [hmerge]
  -- the result is stored
  obtain ⟨stored, w₂, hstore, hflushed, hrun₂⟩ :=
    run_perform_flushed caching c (.update merged) nofun w₁ _
  have hold₁ : w₁.table.get? merged.id = some old := by
    rw [hsame.table_eq, hmerged]
    exact hold
  obtain ⟨rfl, htable⟩ := hstore.update_eq hc hold₁
  rw [hmerged, hsame.table_eq, World.now_eq hload.wall_eq] at htable
  rw [hrun₂]
  -- and read back
  obtain ⟨back, w₃, hback, hrun₃⟩ := run_perform caching c (.get p.id) nofun w₂ .done
  have hkept : w₂.SameContents w₃ := hback.sameContents rfl
  have hget : w₂.table.get? p.id = some (old.replaced merged w.now) := by
    rw [htable, Keyed.get?_insert, if_pos rfl]
  rw [Operation.bind_done, hback.get_eq hc hget] at hrun₃
  refine ⟨w₃, hrun₃, hkept.table_eq.trans htable,
    hkept.gauge_eq.trans (hstore.gauge_eq.trans hsame.gauge_eq), fun g hg hcache => ?_⟩
  rw [hkept.cache_eq]
  exact hflushed rfl g hg hcache

/-- An update that is not refused stores the merged task and returns what is then stored. -/
theorem run_update_merged (hc : c.Reliable) (hold : w.table.get? p.id = some old)
    (hid : old.id = p.id) {merged : Task} (hmerge : p.merge old = .ok merged) :
    ∃ w', run c none (update caching p) w = (some (.ok (old.replaced merged w.now)), w')
      ∧ w'.table = w.table.insert p.id (old.replaced merged w.now) ∧ w'.gauge = w.gauge := by
  obtain ⟨w', hrun, htable, hgauge, -⟩ := run_update_flushed hc hold hid hmerge
  exact ⟨w', hrun, htable, hgauge⟩

/-- An update of a task that is there, while no store call fails, is refused if the request has a
blank title, and then changes nothing. Otherwise the task becomes what the request makes of it, is
returned as it is stored, and is all that changes. -/
theorem update_reflects (hc : c.Reliable) {t : Task} (hget : w.table.get? t.id = some t)
    (r : UpdateRequest) :
    ∃ result w', run c none (update caching (r.toPatch t.id)) w = (some result, w')
      ∧ ((∃ reason, result = .error (.invalidInput reason)) ↔ r.BlankTitle)
      ∧ (r.BlankTitle → w.SameContents w')
      ∧ (¬ r.BlankTitle → ∃ t', result = .ok t' ∧ r.Reflects w.now t t'
          ∧ w'.table.get? t.id = some t'
          ∧ (∀ key, key ≠ t.id → w'.table.get? key = w.table.get? key)
          ∧ w'.table.size = w.table.size ∧ w'.gauge = w.gauge) := by
  by_cases hblank : r.BlankTitle
  · -- the patch is refused, whatever else it says
    have hmerge := UpdateRequest.merge_toPatch_of_blank hblank t.id t
    obtain ⟨w', hrun, hsame⟩ : ∃ w', run c none (update caching (r.toPatch t.id)) w = _ ∧ _ :=
      run_update_refused hc hget hmerge
    exact ⟨_, w', hrun, ⟨fun _ => hblank, fun _ => ⟨_, rfl⟩⟩, fun _ => hsame, absurd hblank⟩
  · -- the merged task takes the place of the old one
    obtain ⟨merged, hmerge, hreflects⟩ := UpdateRequest.merge_toPatch hblank t.id t w.now
    obtain ⟨w', hrun, htable, hgauge⟩ := run_update_merged hc hget rfl hmerge
    refine ⟨_, w', hrun, ⟨nofun, fun h => absurd h hblank⟩, fun h => absurd h hblank, fun _ => ?_⟩
    refine ⟨_, rfl, hreflects, ?_, fun key hkey => ?_, ?_, hgauge⟩
    · rw [htable]
      exact (Keyed.get?_insert ..).trans (if_pos rfl)
    · rw [htable]
      exact (Keyed.get?_insert ..).trans (if_neg hkey)
    · have hcontains : w.table.contains t.id = true := by rw [Keyed.contains, hget]; rfl
      rw [htable]
      exact Keyed.size_insert_of_contains _ hcontains

/-- A task with a value in every field, created a second after the epoch. -/
def fullTask : Task where
  id := "t"
  title := "old"
  description := some "long"
  assignee := some "ann"
  completed := false
  dueDate := some (.ofUnixNanos 5000000000)
  createdAt := .ofUnixNanos 1000000000
  updatedAt := .ofUnixNanos 1000000000

/-- Another title, an empty description, an empty assignee and a due date to the nanosecond. -/
def mixedRequest : UpdateRequest where
  title := some " new "
  description := .set ""
  assignee := .set ""
  dueDate := .set (.ofUnixNanos 7000000999)

/-- The clock is behind the creation of the task, which keeps its assignee, loses its description
and is due at a whole microsecond. -/
theorem update_reflects_of_mixed :
    let w : World := { table := Keyed.empty.insert fullTask.id fullTask, gauge := 1 }
    ∃ w', run (Probe.conditions {}) none (update none (mixedRequest.toPatch fullTask.id)) w
        = (some (.ok { fullTask with
            title := "new", description := none, dueDate := some (.ofUnixNanos 7000000000) }), w')
      ∧ w'.gauge = 1 := by
  intro w
  have hreliable : (Probe.conditions {}).Reliable := fun _ _ => rfl
  have hget : w.table.get? fullTask.id = some fullTask := rfl
  have hblank : ¬ mixedRequest.BlankTitle := by
    rintro ⟨raw, htitle, -, hall⟩
    obtain rfl := Option.some.inj htitle
    exact absurd (hall 'n' (by decide)) (by decide)
  obtain ⟨result, w', hrun, -, -, hgoes⟩ : ∃ result w', run _ none (update none _) w = _ ∧ _ :=
    update_reflects hreliable hget mixedRequest
  obtain ⟨t', rfl, hreflects, -, -, -, hgauge⟩ := hgoes hblank
  refine ⟨w', ?_, hgauge⟩
  rw [hrun]
  obtain ⟨id, title, description, assignee, completed, dueDate, createdAt, updatedAt⟩ := t'
  obtain ⟨rfl, rfl, rfl, rfl, rfl, rfl, rfl, rfl⟩ := hreflects
  have htitle : Text.trimmed " new " = "new" := by decide +kernel
  have hdue : (Instant.ofUnixNanos 7000000999).toMicros = .ofUnixNanos 7000000000 := by decide
  have htime : (if w.now.notAfter fullTask.createdAt then fullTask.createdAt else w.now)
      = fullTask.updatedAt := by decide
  simp [mixedRequest, htitle, hdue, htime]

end Service

end TaskBoard
