import TaskBoard.Proofs.Run.Account
import TaskBoard.Proofs.Run.Pool
import TaskBoard.Proofs.Store.Sound
import Mathlib.Data.Set.Function
import Mathlib.Order.Interval.Set.Defs

/-!
# Careful operations side by side

A careful operation asks a store of sound tasks for nothing that is not sound, and may use what it
has read for that. Any number of careful operations keep all tasks sound, in whatever order their
calls come, and as long as no id is generated twice a task has one time of creation.

* `intact_step`, `intact_run`: what every step of a pool of careful operations keeps;
* `kept_step`, `kept_run`: what one state of such a pool tells about a later one.
-/

namespace TaskBoard.Run

variable {α β : Type}

/-- An operation that asks a store of sound tasks for nothing that is not sound. -/
inductive Careful : Operation α → Prop where
  | done (a : α) : Careful (.done a)
  | store {call : StoreCall} {next : call.Reply → Operation α} (hcall : call.Sound)
      (hnext : ∀ reply, call.SoundReply reply → Careful (next reply)) :
      Careful (.store call next)
  | cache {limit : Nat} {call : CacheCall} {next : call.Reply → Operation α}
      (hnext : ∀ reply, Careful (next reply)) : Careful (.cache limit call next)
  | gauge {change : GaugeChange} {next : Operation α} (hnext : Careful next) :
      Careful (.gauge change next)

theorem Careful.bind {op : Operation α} {f : α → Operation β} (h : Careful op)
    (hf : ∀ a, Careful (f a)) : Careful (op.bind f) := by
  induction h with
  | done a => exact hf a
  | store hcall _ ih => exact .store hcall ih
  | cache _ ih => exact .cache ih
  | gauge _ ih => exact .gauge ih

theorem Careful.map {f : α → β} {op : Operation α} (h : Careful op) : Careful (op.map f) :=
  h.bind fun a => .done (f a)

/-- Reading is careful. -/
theorem Reads.careful {op : Operation α} (h : Reads op) : Careful op := by
  induction h with
  | done a => exact .done a
  | store hcall _ ih => exact .store (StoreCall.sound_of_reads hcall) fun reply _ => ih reply
  | cache _ ih => exact .cache ih

/-! ## One call -/

variable {c : Conditions} {w w' : World} {call : StoreCall} {reply : call.Reply}

/-- A sound call leaves a sound table and is answered with nothing that is not sound. -/
theorem StoreAnswers.sound (h : StoreAnswers c call w reply w') (hcall : call.Sound)
    (hsound : w.table.Sound) : w'.table.Sound ∧ call.SoundReply reply := by
  cases h with
  | performs =>
    exact ⟨hsound.perform hcall (Instant.inMicros_toMicros _), hsound.reply call⟩
  | fails e => exact ⟨hsound, call.soundReply_error e⟩

/-- The number of generated ids only grows. A task that is there after a call has been created
by it under a new id, or has been there before. -/
theorem StoreAnswers.history (h : StoreAnswers c call w reply w') (hcall : call.LeavesId) :
    w.ids ≤ w'.ids ∧ ∀ key task, w'.table.get? key = some task →
      (key = c.id w.ids ∧ w.ids < w'.ids)
        ∨ ∃ old, w.table.get? key = some old ∧ task.createdAt = old.createdAt := by
  cases h with
  | performs =>
    constructor
    · simp only [World.performStore]
      split <;> omega
    · intro key task hget
      rcases Table.perform_history hcall hget with ⟨draft, rfl, hkey, -⟩ | hold
      · have hnone : draft.id = none := hcall
        have htakes : World.takesId (.create draft) = true := by
          simp [World.takesId, hnone]
        refine Or.inl ⟨hkey, ?_⟩
        simp [World.performStore, htakes]
      · exact Or.inr hold
  | fails e => exact ⟨Nat.le_refl _, fun key task hget => Or.inr ⟨task, hget, rfl⟩⟩

/-! ## A pool of careful operations -/

variable {ι : Type} {γ : ι → Type} {program : (r : ι) → Operation (γ r)}
  {allowed : Pool γ → Event γ → Prop} {p q q' : Pool γ} {e : Event γ} {trace : List (Event γ)}

/-- All tasks are sound, their ids have been generated, and all operations are careful. -/
structure Intact (c : Conditions) (p : Pool γ) : Prop where
  sound : p.world.table.Sound
  generated : ∀ key task, p.world.table.get? key = some task →
    ∃ n, n < p.world.ids ∧ key = c.id n
  careful : ∀ j ∈ p.jobs, Careful j.left

/-- Only careful operations are begun. -/
def BeginsCareful (program : (r : ι) → Operation (γ r)) (allowed : Pool γ → Event γ → Prop) :
    Prop :=
  ∀ p r, allowed p (.starts r) → Careful (program r)

/-- An empty store has nothing that is not sound. -/
theorem Intact.of_empty {w : World} (hempty : w.table = .empty) : Intact c (⟨w, []⟩ : Pool γ) := by
  obtain ⟨table⟩ := w
  obtain rfl := hempty
  refine ⟨Table.each_empty _, ?_, ?_⟩
  · intro key task hget
    cases hget
  · intro j hj
    cases hj

theorem intact_step (hbegins : BeginsCareful program allowed) (h : Intact c p)
    (hallowed : allowed p e) (hstep : Step program c p e q) : Intact c q := by
  obtain ⟨hsound, hgenerated, hcareful⟩ := h
  cases hstep with
  | starts w jobs r =>
    refine ⟨hsound, hgenerated, ?_⟩
    intro j hj
    rcases List.mem_cons.1 hj with rfl | hj
    · exact hbegins _ r hallowed
    · exact hcareful j hj
  | waits wall hforward hcut => exact ⟨hsound, hgenerated, hcareful⟩
  | @store w w' l js r call next since reply hanswer =>
    have hjob : Careful (.store call next) :=
      hcareful ⟨r, .store call next, since⟩ (List.mem_append_right _ List.mem_cons_self)
    cases hjob with
    | store hcall hnext =>
      obtain ⟨hsound', hreply⟩ := hanswer.sound hcall hsound
      obtain ⟨hids, hhistory⟩ := hanswer.history hcall.leavesId
      refine ⟨hsound', ?_, ?_⟩
      · intro key task hget
        rcases hhistory key task hget with ⟨hkey, hnew⟩ | ⟨old, hold, -⟩
        · exact ⟨w.ids, hnew, hkey⟩
        · obtain ⟨n, hn, hkey⟩ := hgenerated key old hold
          exact ⟨n, Nat.lt_of_lt_of_le hn hids, hkey⟩
      · exact forall_mem_replace hcareful (fun _ _ hi => hi) (hnext reply hreply)
  | @cache w w' l js r limit call next since reply hanswer =>
    have hjob : Careful (.cache limit call next) :=
      hcareful ⟨r, .cache limit call next, since⟩ (List.mem_append_right _ List.mem_cons_self)
    obtain ⟨-, htable⟩ := hanswer.frame
    have hids : w'.ids = w.ids := by
      cases hanswer with
      | performs => rfl
      | fails e => rfl
    cases hjob with
    | cache hnext =>
      refine ⟨?_, ?_, forall_mem_replace hcareful (fun _ _ hi => hi) (hnext reply)⟩
      · show w'.table.Sound
        rw [htable]
        exact hsound
      · show ∀ key task, w'.table.get? key = some task → ∃ n, n < w'.ids ∧ key = c.id n
        rw [htable, hids]
        exact hgenerated
  | @gauge w l js r change next since =>
    have hjob : Careful (.gauge change next) :=
      hcareful ⟨r, .gauge change next, since⟩ (List.mem_append_right _ List.mem_cons_self)
    cases hjob with
    | gauge hnext =>
      exact ⟨hsound, hgenerated, forall_mem_replace hcareful (fun _ _ hi => hi) hnext⟩
  | ends => exact ⟨hsound, hgenerated, forall_mem_remove hcareful⟩
  | drops j => exact ⟨hsound, hgenerated, forall_mem_remove hcareful⟩

theorem intact_run (hbegins : BeginsCareful program allowed) (h : Intact c p)
    (hrun : Runs program c allowed p trace q) : Intact c q := by
  induction hrun with
  | nil => exact h
  | snoc _ hallowed hstep ih => exact intact_step hbegins ih hallowed hstep

/-- A task that is there in both states has been created at one time, if no id has been generated
twice. -/
structure Kept (c : Conditions) (p q : Pool γ) : Prop where
  ids_le : p.world.ids ≤ q.world.ids
  createdAt_eq : Set.InjOn c.id (Set.Iio q.world.ids) → ∀ key task task',
    p.world.table.get? key = some task → q.world.table.get? key = some task' →
    task'.createdAt = task.createdAt

/-- A step that leaves the stored tasks and generates no id. -/
theorem Kept.of_same (h : Kept c p q) (htable : q'.world.table = q.world.table)
    (hids : q'.world.ids = q.world.ids) : Kept c p q' := by
  obtain ⟨hle, hcreated⟩ := h
  constructor
  · rw [hids]
    exact hle
  · rw [htable, hids]
    exact hcreated

theorem kept_step (hp : Intact c p) (hq : Intact c q) (h : Kept c p q)
    (hstep : Step program c q e q') : Kept c p q' := by
  cases hstep with
  | starts w jobs r => exact h.of_same rfl rfl
  | waits wall hforward hcut => exact h.of_same rfl rfl
  | gauge => exact h.of_same rfl rfl
  | ends => exact h.of_same rfl rfl
  | drops j => exact h.of_same rfl rfl
  | cache hanswer =>
    cases hanswer with
    | performs => exact h.of_same rfl rfl
    | fails e => exact h.of_same rfl rfl
  | @store w w' l js r call next since reply hanswer =>
    obtain ⟨hle, hcreated⟩ := h
    have hjob : Careful (.store call next) :=
      hq.careful ⟨r, .store call next, since⟩ (List.mem_append_right _ List.mem_cons_self)
    cases hjob with
    | store hcall hnext =>
      obtain ⟨hids, hhistory⟩ := hanswer.history hcall.leavesId
      refine ⟨Nat.le_trans hle hids, ?_⟩
      intro hinj key task task' htask htask'
      rcases hhistory key task' htask' with ⟨hkey, hnew⟩ | ⟨old, hold, hsame⟩
      · -- the id of a task that has been there already is not generated again
        obtain ⟨n, hn, hkey'⟩ := hp.generated key task htask
        have hbefore : n < w.ids := Nat.lt_of_lt_of_le hn hle
        have heq : n = w.ids :=
          hinj (Set.mem_Iio.2 (Nat.lt_trans hbefore hnew)) (Set.mem_Iio.2 hnew)
            (hkey'.symm.trans hkey)
        omega
      · have hinj' : Set.InjOn c.id (Set.Iio w.ids) :=
          hinj.mono fun n hn => Nat.lt_of_lt_of_le hn hids
        exact hsame.trans (hcreated hinj' key task old htask hold)

theorem kept_run (hbegins : BeginsCareful program allowed) (hp : Intact c p)
    (hrun : Runs program c allowed p trace q) : Kept c p q := by
  induction hrun with
  | nil =>
    refine ⟨Nat.le_refl _, fun _ key task task' htask htask' => ?_⟩
    rw [Option.some.inj (htask'.symm.trans htask)]
  | snoc hbefore _ hstep ih => exact kept_step hp (intact_run hbegins hp hbefore) ih hstep

end TaskBoard.Run
