import TaskBoard.Proofs.Task.Fields

/-!
# Patches one after the other

Two patches that a task takes one after the other come to a single one, in which the second counts
where it says something. So a patch may be sent again, and two patches that have no field in common
may come in either order. A patch is refused before anything of the task is written.

* `Patch.merge_eq`: a merge finds a title, and then nothing can go wrong any more;
* `Patch.newTitle_followedBy`, `Patch.write_followedBy`: the single patch, title and fields;
* `Patch.mergeInPlace_eq`: what is left of a task that is merged in place;
* `Patch.merge_laws`: composition, repetition, order and refusal.
-/

namespace TaskBoard

namespace Change

variable {α : Type}

/-- Of two changes one after the other the second counts, unless it keeps what is there. -/
theorem apply_apply (c c' : Change α) (old : Option α) :
    c'.apply (c.apply old) = (if !c'.isKeep then c' else c).apply old := by
  cases c' <;> rfl

/-- Two changes may come in either order if one of them keeps what is there. -/
theorem apply_comm {c c' : Change α} (h : c.isKeep = true ∨ c'.isKeep = true) (old : Option α) :
    c'.apply (c.apply old) = c.apply (c'.apply old) := by
  rcases h with h | h
  · rw [apply_of_isKeep h, apply_of_isKeep h]
  · rw [apply_of_isKeep h, apply_of_isKeep h]

end Change

namespace Patch

/-! ## Two patches in one -/

/-- The single patch for `p` and then `q`: what `q` says, and what `p` says where `q` says
nothing. -/
def followedBy (p q : Patch) : Patch where
  id := q.id
  title := if q.touches .title then q.title else p.title
  description := if q.touches .description then q.description else p.description
  assignee := if q.touches .assignee then q.assignee else p.assignee
  completed := if q.touches .completed then q.completed else p.completed
  dueDate := if q.touches .dueDate then q.dueDate else p.dueDate

/-- The task with a title and with what the patch says of the other fields. -/
def write (p : Patch) (title : String) (t : Task) : Task :=
  { t with
    title
    description := p.description.apply t.description
    assignee := p.assignee.apply t.assignee
    completed := p.completed.getD t.completed
    dueDate := (p.dueDate.map Instant.toMicros).apply t.dueDate }

variable {p q : Patch} {t m : Task} {title old : String}

/-- A merge finds a title, and then nothing can go wrong any more. -/
theorem merge_eq (p : Patch) (t : Task) :
    p.merge t = (p.newTitle t.title).map fun title => p.write title t := by
  unfold merge
  cases p.newTitle t.title <;> rfl

/-- A title that has been taken is taken again. -/
theorem newTitle_again (h : p.newTitle old = .ok title) : p.newTitle title = .ok title := by
  rcases p.newTitle_cases with ⟨-, result, hresult⟩ | ⟨-, hkeeps⟩
  · rw [hresult, ← hresult old, h]
  · exact hkeeps title

/-- The single patch takes the title that the second one takes. -/
theorem newTitle_followedBy (h : p.newTitle old = .ok title) :
    (p.followedBy q).newTitle old = q.newTitle title := by
  rcases q.newTitle_cases with ⟨htouches, result, hresult⟩ | ⟨htouches, hkeeps⟩
  · have hsame : (p.followedBy q).newTitle old = q.newTitle old := by
      simp only [newTitle, followedBy, htouches, if_true]
    rw [hsame, hresult, hresult]
  · have hsame : (p.followedBy q).newTitle old = p.newTitle old := by
      simp only [newTitle, followedBy, htouches, Bool.false_eq_true, if_false]
    rw [hsame, h, hkeeps]

/-- The single patch writes what the two write one after the other. -/
theorem write_followedBy (p q : Patch) (title title' : String) (t : Task) :
    q.write title' (p.write title t) = (p.followedBy q).write title' t := by
  have hcompleted : q.completed.getD (p.completed.getD t.completed)
      = (if q.touches .completed then q.completed else p.completed).getD t.completed := by
    unfold touches
    cases q.completed <;> rfl
  have hdue : (q.dueDate.map Instant.toMicros).apply
        ((p.dueDate.map Instant.toMicros).apply t.dueDate)
      = ((if q.touches .dueDate then q.dueDate else p.dueDate).map Instant.toMicros).apply
        t.dueDate := by
    rw [Change.apply_apply, apply_ite (Change.map Instant.toMicros), Change.isKeep_map]
    rfl
  have htexts : ∀ (c c' : Change String) (old : Option String),
      c'.apply (c.apply old) = (if !c'.isKeep then c' else c).apply old := Change.apply_apply
  simp only [write, hcompleted, hdue, htexts]
  rfl

/-- What is written twice is written once. -/
theorem write_write (p : Patch) (title title' : String) (t : Task) :
    p.write title' (p.write title t) = p.write title' t := by
  have htwice : ∀ {α : Type} (c : Change α) (old : Option α),
      c.apply (c.apply old) = c.apply old := by
    intro α c old
    rw [Change.apply_apply, ite_self]
  have hcompleted : p.completed.getD (p.completed.getD t.completed)
      = p.completed.getD t.completed := by
    cases p.completed <;> rfl
  simp only [write, htwice, hcompleted]

/-- Two patches that have no field in common write what they write in either order. -/
theorem write_comm (h : ∀ f, p.touches f = false ∨ q.touches f = false)
    (title title₁ title₂ : String) (t : Task) :
    q.write title (p.write title₁ t) = p.write title (q.write title₂ t) := by
  have hdescription : p.description.isKeep = true ∨ q.description.isKeep = true := by
    simpa [touches] using h .description
  have hassignee : p.assignee.isKeep = true ∨ q.assignee.isKeep = true := by
    simpa [touches] using h .assignee
  have hdue : (p.dueDate.map Instant.toMicros).isKeep = true
      ∨ (q.dueDate.map Instant.toMicros).isKeep = true := by
    simpa [touches] using h .dueDate
  have hcompleted : q.completed.getD (p.completed.getD t.completed)
      = p.completed.getD (q.completed.getD t.completed) := by
    have hnone : p.completed = none ∨ q.completed = none := by simpa [touches] using h .completed
    rcases hnone with hnone | hnone <;> rw [hnone] <;> rfl
  simp only [write, Change.apply_comm hdescription, Change.apply_comm hassignee,
    Change.apply_comm hdue, hcompleted]

/-- Two patches that have no field in common may be merged in either order; if one of them is
refused, it is refused in both. -/
theorem merge_comm (h : ∀ f, p.touches f = false ∨ q.touches f = false) (t : Task) :
    (p.merge t).bind q.merge = (q.merge t).bind p.merge := by
  simp only [funext (merge_eq p), funext (merge_eq q)]
  rcases h .title with htitle | htitle
  · -- only `q` may have a title, and only `q` may be refused
    obtain ⟨hp, -⟩ | ⟨-, hkeeps⟩ := p.newTitle_cases
    · rw [hp] at htitle
      cases htitle
    · rw [hkeeps]
      simp only [Except.map, Except.bind, write, hkeeps]
      cases q.newTitle t.title with
      | error e => rfl
      | ok title => exact congrArg Except.ok (write_comm h title t.title title t)
  · obtain ⟨hq, -⟩ | ⟨-, hkeeps⟩ := q.newTitle_cases
    · rw [hq] at htitle
      cases htitle
    · rw [hkeeps]
      simp only [Except.map, Except.bind, write, hkeeps]
      cases p.newTitle t.title with
      | error e => rfl
      | ok title => exact congrArg Except.ok (write_comm h title title t.title t)

/-! ## In place -/

/-- The merge as it is done to a task in place. The new title is looked at first, and then the
fields are written one after the other; an error leaves what has been written by then. -/
def mergeSteps (p : Patch) : ExceptT TaskError (StateM Task) Unit := do
  let title ← match p.title with
    | some raw => if raw.isEmpty then pure none else some <$> liftExcept (normalizeTitle raw)
    | none => pure none
  if let some title := title then
    modify fun t => { t with title }
  modify fun t => { t with description := p.description.apply t.description }
  modify fun t => { t with assignee := p.assignee.apply t.assignee }
  if let some completed := p.completed then
    modify fun t => { t with completed }
  modify fun t => { t with dueDate := (p.dueDate.map Instant.toMicros).apply t.dueDate }

/-- What a merge in place returns, and the task that is left. -/
def mergeInPlace (p : Patch) (t : Task) : Except TaskError Unit × Task := p.mergeSteps.run.run t

/-- A merge in place leaves the merged task, or the task that was there if it is refused. -/
theorem mergeInPlace_eq (p : Patch) (t : Task) : p.mergeInPlace t = match p.merge t with
    | .ok m => (.ok (), m)
    | .error e => (.error e, t) := by
  obtain ⟨id, title, description, assignee, completed, dueDate⟩ := p
  rcases title with _ | raw
  · cases completed <;> rfl
  · cases hempty : raw.isEmpty with
    | true =>
      simp only [mergeInPlace, mergeSteps, merge, newTitle, hempty, if_true]
      cases completed <;> rfl
    | false =>
      simp only [mergeInPlace, mergeSteps, merge, newTitle, hempty]
      cases normalizeTitle raw with
      | error e => rfl
      | ok title => cases completed <;> rfl

/-- What two patches do to a task, one after the other. If the first one is taken, the second does
what the single patch for both does. A patch that has been taken is taken again and changes nothing.
Two patches that have no field in common do the same in either order. And a patch that is refused
leaves the task in place as it was. -/
theorem merge_laws (p q : Patch) (t : Task) :
    (∀ m, p.merge t = .ok m → q.merge m = (p.followedBy q).merge t)
    ∧ (∀ m, p.merge t = .ok m → p.merge m = .ok m)
    ∧ ((∀ f, p.touches f = false ∨ q.touches f = false) →
      (p.merge t).bind q.merge = (q.merge t).bind p.merge)
    ∧ (∀ m, p.merge t = .ok m → p.mergeInPlace t = (.ok (), m))
    ∧ ∀ e, p.merge t = .error e → p.mergeInPlace t = (.error e, t) := by
  refine ⟨fun m h => ?_, fun m h => ?_, fun h => merge_comm h t, fun m h => ?_, fun e h => ?_⟩
  · obtain ⟨title, htitle, rfl⟩ := merge_eq_ok_iff.1 h
    have hsingle : (p.followedBy q).newTitle t.title = q.newTitle title :=
      newTitle_followedBy htitle
    rw [merge_eq, merge_eq, hsingle]
    exact congrArg (fun write => (q.newTitle title).map write)
      (funext fun title' => write_followedBy p q title title' t)
  · obtain ⟨title, htitle, hm⟩ := merge_eq_ok_iff.1 h
    have hm : m = p.write title t := hm
    have hagain : p.newTitle m.title = .ok title := by
      rw [hm]
      exact newTitle_again htitle
    rw [merge_eq, hagain, hm]
    exact congrArg Except.ok (write_write p title title t)
  · rw [mergeInPlace_eq, h]
  · rw [mergeInPlace_eq, h]

/-- Two patches that have no field in common, the first one with a title and a date, and one that is
refused after it has been given more than a title. -/
theorem merge_laws_of_title_and_assignee :
    let due : Instant := { seconds := -1, nanos := 1999 }
    let p : Patch :=
      { id := "a", title := some " milk ", description := .clear, dueDate := .set due }
    let q : Patch := { id := "a", title := some "", assignee := .set "ann", completed := some true }
    let r : Patch := { id := "a", title := some "  ", description := .set "none of it" }
    let t : Task := ⟨"a", "eggs", some "six", none, false, none, due, due⟩
    let m : Task := { t with title := "milk", description := none, dueDate := some due.toMicros }
    (p.merge t = .ok m ∧ q.merge m = (p.followedBy q).merge t ∧ p.merge m = .ok m
      ∧ p.mergeInPlace t = (.ok (), m))
    ∧ (p.merge t).bind q.merge = (q.merge t).bind p.merge
    ∧ r.mergeInPlace t = (.error (.invalidInput "title must not be empty"), t) := by
  intro due p q r t m
  have hmilk : Text.trimmed " milk " = "milk" := by decide +kernel
  have hblank : Text.trimmed "  " = "" := by decide +kernel
  have hptitle : p.newTitle t.title = .ok "milk" := by
    change normalizeTitle " milk " = _
    rw [normalizeTitle, hmilk]
    rfl
  have hrtitle : r.newTitle t.title = .error (.invalidInput "title must not be empty") := by
    change normalizeTitle "  " = _
    rw [normalizeTitle, hblank]
    rfl
  have hp : p.merge t = .ok m := by
    rw [merge_eq, hptitle]
    rfl
  have hr : r.merge t = .error (.invalidInput "title must not be empty") := by
    rw [merge_eq, hrtitle]
    rfl
  have hdisjoint : ∀ f, p.touches f = false ∨ q.touches f = false := by
    intro f
    cases f <;> decide +kernel
  obtain ⟨hcompose, hagain, hcomm, hplace, -⟩ := merge_laws p q t
  exact ⟨⟨hp, hcompose m hp, hagain m hp, hplace m hp⟩, hcomm hdisjoint,
    (merge_laws r q t).2.2.2.2 _ hr⟩

end Patch

end TaskBoard
