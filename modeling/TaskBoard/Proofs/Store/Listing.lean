import TaskBoard.Proofs.Instant.Order
import TaskBoard.Store.Table
import Mathlib.Data.List.Nodup

/-!
# The order of lists

Any two tasks are ordered by their age, and tasks of one age by their ids. Only one task of an id
and an age there can be in a table, so the order of a list leaves nothing to how the tasks are kept.

* `Task.newestFirst_trans`, `Task.newestFirst_total`, `Task.newestFirst_antisymm`: the order;
* `mergeSort_eq_of_perm`: sorting forgets the order in which tasks come.
-/

namespace TaskBoard

variable {a b c : Task}

namespace Task

theorem newestFirst_iff : a.newestFirst b = true ↔
    b.createdAt.notAfter a.createdAt = true ∧ (a.createdAt = b.createdAt → b.id ≤ a.id) := by
  unfold newestFirst
  by_cases hsame : a.createdAt = b.createdAt
  · simp [hsame, Instant.notAfter_refl]
  · simp [hsame]

theorem newestFirst_trans (h : a.newestFirst b = true) (h' : b.newestFirst c = true) :
    a.newestFirst c = true := by
  rw [newestFirst_iff] at h h' ⊢
  obtain ⟨hab, hids⟩ := h
  obtain ⟨hbc, hids'⟩ := h'
  refine ⟨Instant.notAfter_trans hbc hab, fun hac => ?_⟩
  -- what is between two instants that are the same is the same too
  have hsame : a.createdAt = b.createdAt := by
    rw [← hac] at hbc
    exact Instant.notAfter_antisymm hbc hab
  exact String.le_trans (hids' (hsame.symm.trans hac)) (hids hsame)

theorem newestFirst_total (a b : Task) : (a.newestFirst b || b.newestFirst a) = true := by
  rw [Bool.or_eq_true, newestFirst_iff, newestFirst_iff]
  by_cases hsame : a.createdAt = b.createdAt
  · have hrefl := Instant.notAfter_refl a.createdAt
    rcases String.le_total b.id a.id with hle | hle
    · exact Or.inl ⟨hsame ▸ hrefl, fun _ => hle⟩
    · exact Or.inr ⟨hsame ▸ hrefl, fun _ => hle⟩
  · rcases Instant.notAfter_total b.createdAt a.createdAt with hle | hle
    · exact Or.inl ⟨hle, fun h => absurd h hsame⟩
    · exact Or.inr ⟨hle, fun h => absurd h.symm hsame⟩

/-- Tasks that may stand in either order are of one id. -/
theorem newestFirst_antisymm (h : a.newestFirst b = true) (h' : b.newestFirst a = true) :
    a.id = b.id := by
  rw [newestFirst_iff] at h h'
  have hsame : a.createdAt = b.createdAt := Instant.notAfter_antisymm h'.1 h.1
  exact String.le_antisymm (h'.2 hsame.symm) (h.2 hsame)

end Task

/-- Sorting tasks of different ids forgets the order in which they come. -/
theorem mergeSort_eq_of_perm {tasks tasks' : List Task} (hperm : tasks.Perm tasks')
    (hnodup : (tasks.map Task.id).Nodup) :
    tasks.mergeSort Task.newestFirst = tasks'.mergeSort Task.newestFirst := by
  have htrans : ∀ a b c : Task, a.newestFirst b = true → b.newestFirst c = true →
      a.newestFirst c = true := fun _ _ _ => Task.newestFirst_trans
  have hsorted := List.pairwise_mergeSort htrans Task.newestFirst_total tasks
  have hsorted' := List.pairwise_mergeSort htrans Task.newestFirst_total tasks'
  have hsame : (tasks.mergeSort Task.newestFirst).Perm (tasks'.mergeSort Task.newestFirst) :=
    ((List.mergeSort_perm tasks _).trans hperm).trans (List.mergeSort_perm tasks' _).symm
  refine List.Perm.eq_of_pairwise ?_ hsorted hsorted' hsame
  intro a b ha hb hab hba
  have hmem : a ∈ tasks := (List.mergeSort_perm tasks _).mem_iff.1 ha
  have hmem' : b ∈ tasks := hperm.mem_iff.2 ((List.mergeSort_perm tasks' _).mem_iff.1 hb)
  exact List.inj_on_of_nodup_map hnodup hmem hmem' (Task.newestFirst_antisymm hab hba)

end TaskBoard
