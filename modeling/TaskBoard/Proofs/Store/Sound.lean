import TaskBoard.Proofs.Store.Table
import TaskBoard.Proofs.Task.Sound

/-!
# A table of sound tasks

Calls that ask for nothing unsound keep every task of a table sound and under its own id, and no
call but a create makes a key, or a new time of creation for one.

* `Table.Sound.perform`: what a sound call leaves;
* `Table.Sound.reply`: what a sound call is answered;
* `Table.perform_history`: a task that is there after a call was created by it, or was there before
  and was created when it was.
-/

namespace TaskBoard

/-- What may be asked of a store without making it hold what is not sound. Ids are for the store
to choose. -/
def StoreCall.Sound : StoreCall → Prop
  | .create draft => draft.id = none ∧ draft.Sound
  | .update task => task.Sound
  | _ => True

/-- The call leaves it to the store to choose an id. -/
def StoreCall.LeavesId : StoreCall → Prop
  | .create draft => draft.id = none
  | _ => True

theorem StoreCall.Sound.leavesId {call : StoreCall} (h : call.Sound) : call.LeavesId := by
  cases call with
  | create draft => exact h.1
  | _ => trivial

/-- A task that is read is sound. -/
def StoreCall.SoundReply : (call : StoreCall) → call.Reply → Prop
  | .get _, .ok task => Task.Sound task
  | _, _ => True

theorem StoreCall.soundReply_error (call : StoreCall) (e : TaskError) :
    call.SoundReply (.error e) := by
  cases call <;> trivial

theorem StoreCall.sound_of_reads {call : StoreCall} (h : call.writes = false) : call.Sound := by
  cases call with
  | create draft => cases h
  | update task => cases h
  | delete id => trivial
  | get id => trivial
  | list q => trivial
  | count => trivial
  | countFiltered f => trivial

namespace Table

/-- Every task is sound and kept under its own id. -/
def Sound : Table → Prop := Each Task.Sound

variable {now : Instant} {freshId : String} {t : Table}

/-- A sound call leaves a sound table. -/
theorem Sound.perform {call : StoreCall} (h : t.Sound) (hcall : call.Sound) (hnow : now.InMicros) :
    Sound (Table.perform now freshId call t).2 := by
  refine Each.perform h (fun draft hdraft => ?_) fun task old htask _ hold => ?_
  · cases hdraft
    exact hcall.2.toTask _ hnow
  · cases htask
    exact hold.replaced hcall hnow

/-- A sound table gives sound answers. -/
theorem Sound.reply (h : t.Sound) (call : StoreCall) :
    call.SoundReply (Table.perform now freshId call t).1 := by
  cases call with
  | get id =>
    simp only [Table.perform]
    cases hget : t.get? id with
    | some task => exact (h id task hget).2
    | none => trivial
  | create draft => trivial
  | update task => trivial
  | delete id => trivial
  | list q => trivial
  | count => trivial
  | countFiltered f => trivial

/-- A task that is there after a call was created by it under the new id, or was there before and
was created when it was. -/
theorem perform_history {call : StoreCall} (hcall : call.LeavesId) {key : String} {task : Task}
    (hget : (Table.perform now freshId call t).2.get? key = some task) :
    (∃ draft, call = .create draft ∧ key = freshId ∧ t.get? key = none)
      ∨ ∃ old, t.get? key = some old ∧ task.createdAt = old.createdAt := by
  have hkept : ∀ {found}, t.get? key = some found →
      ∃ old, t.get? key = some old ∧ found.createdAt = old.createdAt := by
    intro found hfound
    exact ⟨found, hfound, rfl⟩
  cases call with
  | create draft =>
    have hid : draft.id.getD freshId = freshId := by
      have hnone : draft.id = none := hcall
      rw [hnone]
      rfl
    simp only [Table.perform, hid] at hget
    split at hget
    · exact Or.inr (hkept hget)
    · rename_i hnew
      rw [Keyed.get?_insert] at hget
      by_cases hkey : key = freshId
      · refine Or.inl ⟨draft, rfl, hkey, ?_⟩
        rw [hkey]
        simpa [Keyed.contains] using hnew
      · rw [if_neg hkey] at hget
        exact Or.inr (hkept hget)
  | get id =>
    right
    simp only [Table.perform] at hget
    split at hget <;> exact hkept hget
  | update new =>
    right
    simp only [Table.perform] at hget
    split at hget
    · rename_i old hold
      rw [Keyed.get?_insert] at hget
      by_cases hkey : key = new.id
      · -- an update takes over the time of the creation
        rw [if_pos hkey] at hget
        obtain rfl := Option.some.inj hget
        exact ⟨old, by rw [hkey, hold], rfl⟩
      · rw [if_neg hkey] at hget
        exact hkept hget
    · exact hkept hget
  | delete id =>
    right
    simp only [Table.perform, Keyed.get?_erase] at hget
    by_cases hkey : key = id
    · rw [if_pos hkey] at hget
      cases hget
    · rw [if_neg hkey] at hget
      exact hkept hget
  | list q => exact Or.inr (hkept hget)
  | count => exact Or.inr (hkept hget)
  | countFiltered f => exact Or.inr (hkept hget)

end Table

end TaskBoard
