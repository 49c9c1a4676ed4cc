import TaskBoard.Proofs.Instant.Order
import TaskBoard.Proofs.Task.Fields
import TaskBoard.Proofs.Task.Title
import TaskBoard.Store.Table
import TaskBoard.Task.Request

/-!
# Sound tasks

What holds of every task that comes from a request: it has a trimmed title, no empty text in an
optional field, times to the microsecond, and it is not updated before it is created.

* `Draft.Sound.toTask`, `Task.Sound.replaced`: a store makes sound tasks of sound content;
* `CreateRequest.sound_toDraft`: a create request with a good title asks for sound content;
* `UpdateRequest.sound_merge`: an update request keeps a task sound.
-/

namespace TaskBoard

/-! ## Content -/

/-- What callers say about a task, as it may be stored. -/
structure SoundContent (title : String) (description assignee : Option String)
    (dueDate : Option Instant) : Prop where
  title_ne : title ≠ ""
  title_trimmed : Text.trimmed title = title
  description_ne : description ≠ some ""
  assignee_ne : assignee ≠ some ""
  dueDate_micros : ∀ due, dueDate = some due → due.InMicros

/-- The content of a draft may be stored. -/
def Draft.Sound (d : Draft) : Prop := SoundContent d.title d.description d.assignee d.dueDate

/-- A task as a store may hold it. -/
structure Task.Sound (t : Task) : Prop
    extends SoundContent t.title t.description t.assignee t.dueDate where
  notAfter : t.createdAt.notAfter t.updatedAt = true
  createdAt_micros : t.createdAt.InMicros
  updatedAt_micros : t.updatedAt.InMicros

variable {now : Instant}

/-- A store makes a sound task of a sound draft. -/
theorem Draft.Sound.toTask {d : Draft} (h : d.Sound) (id : String) (hnow : now.InMicros) :
    (d.toTask id now).Sound where
  toSoundContent := h
  notAfter := Instant.notAfter_refl now
  createdAt_micros := hnow
  updatedAt_micros := hnow

/-- A sound task that takes the content of another one is sound. -/
theorem Task.Sound.replaced {old new : Task} (hold : old.Sound) (hnew : new.Sound)
    (hnow : now.InMicros) : (old.replaced new now).Sound where
  toSoundContent := hnew.toSoundContent
  notAfter := Instant.notAfter_latest now old.createdAt
  createdAt_micros := hold.createdAt_micros
  updatedAt_micros := hnow.latest hold.createdAt_micros

/-! ## Requests -/

theorem filter_isEmpty_ne (text : Option String) :
    text.filter (fun s => !s.isEmpty) ≠ some "" := by
  intro h
  have hempty := (Option.filter_eq_some_iff.1 h).2
  simp at hempty

/-- A create request asks for sound content as soon as its title is good. -/
theorem CreateRequest.sound_toDraft (r : CreateRequest) {title : String}
    (h : normalizeTitle r.title = .ok title) : Draft.Sound { r.toDraft with title } where
  title_ne := (normalizeTitle_eq_ok h).1
  title_trimmed := (normalizeTitle_eq_ok h).2
  description_ne := filter_isEmpty_ne r.description
  assignee_ne := filter_isEmpty_ne r.assignee
  dueDate_micros due hdue := by
    obtain ⟨raw, -, rfl⟩ := Option.map_eq_some_iff.1 hdue
    exact raw.inMicros_toMicros

namespace Change

/-- A property of what is there and of what is set is one of what is there afterwards. -/
theorem apply_forall {α : Type} {P : α → Prop} {c : Change α} {old : Option α}
    (hold : ∀ a, old = some a → P a) (hset : ∀ a, c = set a → P a) :
    ∀ a, c.apply old = some a → P a := by
  cases c with
  | keep => exact hold
  | clear => exact fun a ha => nomatch ha
  | set value =>
    intro a ha
    exact hset a (congrArg set (Option.some.inj ha))

theorem ne_of_emptyAsClear {c : Change String} {text : String} (h : c.emptyAsClear = set text) :
    text ≠ "" := by
  rintro rfl
  cases c with
  | keep => cases h
  | clear => cases h
  | set value =>
    by_cases hempty : value.isEmpty = true
    · simp [emptyAsClear, hempty] at h
    · simp only [emptyAsClear, hempty] at h
      simp [set.inj h] at hempty

theorem ne_of_emptyAsKeep {c : Change String} {text : String} (h : c.emptyAsKeep = set text) :
    text ≠ "" := by
  rintro rfl
  cases c with
  | keep => cases h
  | clear => cases h
  | set value =>
    by_cases hempty : value.isEmpty = true
    · simp [emptyAsKeep, hempty] at h
    · simp only [emptyAsKeep, hempty] at h
      simp [set.inj h] at hempty

end Change

/-- The title of a patched task is the one it had or a good one. -/
theorem Patch.newTitle_eq_ok {p : Patch} {old title : String} (h : p.newTitle old = .ok title) :
    title = old ∨ title ≠ "" ∧ Text.trimmed title = title := by
  unfold newTitle at h
  split at h
  · split at h
    · exact Or.inl (Except.ok.inj h).symm
    · exact Or.inr (normalizeTitle_eq_ok h)
  · exact Or.inl (Except.ok.inj h).symm

/-- An update request keeps a task sound. -/
theorem UpdateRequest.sound_merge {r : UpdateRequest} {id : String} {t m : Task} (ht : t.Sound)
    (h : (r.toPatch id).merge t = .ok m) : m.Sound := by
  obtain ⟨title, htitle, rfl⟩ := Patch.merge_eq_ok_iff.1 h
  have htexts : title ≠ "" ∧ Text.trimmed title = title := by
    rcases Patch.newTitle_eq_ok htitle with rfl | hgood
    · exact ⟨ht.title_ne, ht.title_trimmed⟩
    · exact hgood
  have hne : ∀ {old : Option String}, old ≠ some "" → ∀ text, old = some text → text ≠ "" := by
    rintro old hold text htext rfl
    exact hold htext
  have hdescription : ∀ text, r.description.emptyAsClear.apply t.description = some text →
      text ≠ "" :=
    Change.apply_forall (hne ht.description_ne) fun _ => Change.ne_of_emptyAsClear
  have hassignee : ∀ text, r.assignee.emptyAsKeep.apply t.assignee = some text → text ≠ "" :=
    Change.apply_forall (hne ht.assignee_ne) fun _ => Change.ne_of_emptyAsKeep
  have hdue : ∀ due, ((r.dueDate.map Instant.toMicros).map Instant.toMicros) = .set due →
      due.InMicros := by
    intro due hdue
    cases hr : r.dueDate with
    | keep => simp [hr, Change.map] at hdue
    | clear => simp [hr, Change.map] at hdue
    | set value =>
      simp only [hr, Change.map, Change.set.injEq] at hdue
      rw [← hdue]
      exact value.toMicros.inMicros_toMicros
  exact {
    title_ne := htexts.1
    title_trimmed := htexts.2
    description_ne := fun hempty => hdescription "" hempty rfl
    assignee_ne := fun hempty => hassignee "" hempty rfl
    dueDate_micros := Change.apply_forall ht.dueDate_micros hdue
    notAfter := ht.notAfter
    createdAt_micros := ht.createdAt_micros
    updatedAt_micros := ht.updatedAt_micros }

end TaskBoard
