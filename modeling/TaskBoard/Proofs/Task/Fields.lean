import TaskBoard.Store.Table

/-!
# Patches field by field

What a patch does to one field does not depend on what it does to the others: a field that it does
not touch stays as it is, and a field that it touches becomes the same whatever the task was.

* `Patch.same_of_untouched`, `Patch.same_of_touched`: the two cases;
* `Patch.exists_merge`: whether a patch is refused does not depend on the task;
* `TaskField.same_replaced`: a store takes over all fields that a patch may touch.
-/

namespace TaskBoard

/-- The fields of a task that a patch may change. -/
inductive TaskField where
  | title
  | description
  | assignee
  | completed
  | dueDate
deriving DecidableEq, Repr

/-- Both tasks have the same in the field. -/
def TaskField.Same : TaskField → Task → Task → Prop
  | title, a, b => a.title = b.title
  | description, a, b => a.description = b.description
  | assignee, a, b => a.assignee = b.assignee
  | completed, a, b => a.completed = b.completed
  | dueDate, a, b => a.dueDate = b.dueDate

instance : (f : TaskField) → (a b : Task) → Decidable (f.Same a b)
  | .title, a, b => inferInstanceAs (Decidable (a.title = b.title))
  | .description, a, b => inferInstanceAs (Decidable (a.description = b.description))
  | .assignee, a, b => inferInstanceAs (Decidable (a.assignee = b.assignee))
  | .completed, a, b => inferInstanceAs (Decidable (a.completed = b.completed))
  | .dueDate, a, b => inferInstanceAs (Decidable (a.dueDate = b.dueDate))

/-- Whether the patch says something about the field. -/
def Patch.touches (p : Patch) : TaskField → Bool
  | .title => p.title.any fun raw => !raw.isEmpty
  | .description => !p.description.isKeep
  | .assignee => !p.assignee.isKeep
  | .completed => p.completed.isSome
  | .dueDate => !p.dueDate.isKeep

variable {a b t t' m m' : Task} {p : Patch} {f : TaskField}

namespace TaskField

theorem Same.symm (h : f.Same a b) : f.Same b a := by
  cases f <;> exact Eq.symm h

theorem Same.trans (h : f.Same a b) (h' : f.Same b t) : f.Same a t := by
  cases f <;> exact Eq.trans h h'

/-- A store takes over all fields that a patch may touch. -/
theorem same_replaced (f : TaskField) (old new : Task) (now : Instant) :
    f.Same (old.replaced new now) new := by
  cases f <;> rfl

end TaskField

/-- Of two tasks that replace one after the other only the second is left. -/
theorem Task.replaced_replaced (old new new' : Task) (now now' : Instant) :
    (old.replaced new now).replaced new' now' = old.replaced new' now' := rfl

namespace Change

theorem apply_of_isKeep {α : Type} {c : Change α} (h : c.isKeep = true) (old : Option α) :
    c.apply old = old := by
  cases c with
  | keep => rfl
  | clear => cases h
  | set value => cases h

/-- A change that mentions the field leaves nothing of what was there. -/
theorem apply_of_not_isKeep {α : Type} {c : Change α} (h : c.isKeep = false)
    (old old' : Option α) : c.apply old = c.apply old' := by
  cases c with
  | keep => cases h
  | clear => rfl
  | set value => rfl

@[simp] theorem isKeep_map {α β : Type} (g : α → β) (c : Change α) :
    (c.map g).isKeep = c.isKeep := by
  cases c <;> rfl

end Change

namespace Patch

/-- A patch that is not refused has found a title and changes the fields one by one. -/
theorem merge_eq_ok_iff : p.merge t = .ok m ↔ ∃ title, p.newTitle t.title = .ok title
    ∧ m = { t with
      title
      description := p.description.apply t.description
      assignee := p.assignee.apply t.assignee
      completed := p.completed.getD t.completed
      dueDate := (p.dueDate.map Instant.toMicros).apply t.dueDate } := by
  unfold merge
  cases p.newTitle t.title with
  | error e =>
    constructor
    · intro h
      cases h
    · rintro ⟨title, htitle, -⟩
      cases htitle
  | ok title =>
    constructor
    · intro h
      exact ⟨title, rfl, (Except.ok.inj h).symm⟩
    · rintro ⟨title', htitle, rfl⟩
      rw [Except.ok.inj htitle]
      rfl

/-- A patch with a title gives it to every task, and one without gives every task its own. -/
theorem newTitle_cases (p : Patch) :
    p.touches .title = true ∧ (∃ result, ∀ old, p.newTitle old = result)
    ∨ p.touches .title = false ∧ ∀ old, p.newTitle old = .ok old := by
  unfold touches newTitle
  cases p.title with
  | none => exact Or.inr ⟨rfl, fun old => rfl⟩
  | some raw =>
    cases hempty : raw.isEmpty with
    | true => exact Or.inr ⟨by simp [hempty], by simp [hempty]⟩
    | false => exact Or.inl ⟨by simp [hempty], normalizeTitle raw, by simp [hempty]⟩

/-- The id and the time of the creation are not for patches to change. -/
theorem merge_frame (h : p.merge t = .ok m) : m.id = t.id ∧ m.createdAt = t.createdAt := by
  obtain ⟨title, -, rfl⟩ := merge_eq_ok_iff.1 h
  exact ⟨rfl, rfl⟩

/-- A patch leaves a field that it does not touch. -/
theorem same_of_untouched (h : p.merge t = .ok m) (hf : p.touches f = false) : f.Same m t := by
  obtain ⟨title, htitle, rfl⟩ := merge_eq_ok_iff.1 h
  cases f with
  | title =>
    rcases p.newTitle_cases with ⟨htouches, -⟩ | ⟨-, hkeeps⟩
    · rw [htouches] at hf
      cases hf
    · rw [hkeeps] at htitle
      exact (Except.ok.inj htitle).symm
  | description => exact Change.apply_of_isKeep (by simpa [touches] using hf) _
  | assignee => exact Change.apply_of_isKeep (by simpa [touches] using hf) _
  | completed =>
    have hnone : p.completed = none := by simpa [touches] using hf
    simp [TaskField.Same, hnone]
  | dueDate => exact Change.apply_of_isKeep (by simpa [touches] using hf) _

/-- What a patch makes of a field that it touches does not depend on the task. -/
theorem same_of_touched (h : p.merge t = .ok m) (h' : p.merge t' = .ok m')
    (hf : p.touches f = true) : f.Same m m' := by
  obtain ⟨title, htitle, rfl⟩ := merge_eq_ok_iff.1 h
  obtain ⟨title', htitle', rfl⟩ := merge_eq_ok_iff.1 h'
  cases f with
  | title =>
    rcases p.newTitle_cases with ⟨-, result, hresult⟩ | ⟨htouches, -⟩
    · rw [hresult] at htitle htitle'
      exact Except.ok.inj (htitle.symm.trans htitle')
    · rw [htouches] at hf
      cases hf
  | description => exact Change.apply_of_not_isKeep (by simpa [touches] using hf) _ _
  | assignee => exact Change.apply_of_not_isKeep (by simpa [touches] using hf) _ _
  | completed =>
    obtain ⟨value, hvalue⟩ := Option.isSome_iff_exists.1 (show p.completed.isSome = true from hf)
    simp [TaskField.Same, hvalue]
  | dueDate => exact Change.apply_of_not_isKeep (by simpa [touches] using hf) _ _

/-- Whether a patch is refused does not depend on the task. -/
theorem exists_merge (h : p.merge t = .ok m) (t' : Task) : ∃ m', p.merge t' = .ok m' := by
  obtain ⟨title, htitle, -⟩ := merge_eq_ok_iff.1 h
  rcases p.newTitle_cases with ⟨-, result, hresult⟩ | ⟨-, hkeeps⟩
  · have htitle' : p.newTitle t'.title = .ok title := by rw [hresult, ← hresult t.title, htitle]
    exact ⟨_, merge_eq_ok_iff.2 ⟨title, htitle', rfl⟩⟩
  · exact ⟨_, merge_eq_ok_iff.2 ⟨t'.title, hkeeps _, rfl⟩⟩

end Patch

end TaskBoard
