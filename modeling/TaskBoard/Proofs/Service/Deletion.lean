import TaskBoard.Proofs.Service.Calls
import TaskBoard.Proofs.Service.Gone
import TaskBoard.Proofs.Service.SideBySide

/-!
# Deleted tasks stay deleted

Tasks get generated ids, and no id is generated twice. So the id of a task that has been deleted is
never used again, and whoever still has a copy of the task cannot store it.

* `settled_run`, `ignores_step`: what is deleted is gone for all who ask;
* `Updating`: how far an update has come, and what it has stored;
* `inVain_of_overtaken`: what becomes of an update that had loaded the task;
* `one_of_deletes`: of all deletes of a task one takes it away;
* `deletion_final`: all of this together.
-/

namespace TaskBoard.Service

open Run

/-! ## The pool -/

variable {c : Conditions} {n : Nat} {w w' : World} {id : String} {call : StoreCall}
  {reply : call.Reply} {ι : Type} [DecidableEq ι] {calls : ι → ServiceCall} {p q : Pool (Learns ι)}
  {e : Event (Learns ι)} {trace trace' : List (Event (Learns ι))} {r d : ι}

/-- No store call fails, and no call is abandoned but a side of a list. -/
def undisturbed (c : Conditions) (calls : ι → ServiceCall) :
    Pool (Learns ι) → Event (Learns ι) → Prop
  | p, .store _ call reply _ => reply = (p.world.performStore c call).1
  | p, e => noneAbandoned calls p e

/-- The task with this id is taken away. -/
def Deletes (id : String) (e : Event (Learns ι)) : Prop :=
  ∃ d time, e = .store d (.delete id) (.ok true) time

/-- What holds of a pool at any time. -/
structure Settled (c : Conditions) (n : Nat) (calls : ι → ServiceCall)
    (trace : List (Event (Learns ι))) (p : Pool (Learns ι)) : Prop where
  courses : Courses (making none calls) trace p
  ordered : Ordered c n p.world
  gone : ∀ id, Happened (Deletes id) trace → Gone c n id p.world

/-- What callers ask of the store is what their calls may ask. -/
theorem mayAsk_of_job {call : StoreCall} {next : call.Reply → Operation (Learns ι r)} {since : Nat}
    (h : Courses (making none calls) trace p) (hj : ⟨r, .store call next, since⟩ ∈ p.jobs) :
    (calls r).MayAsk call := by
  obtain ⟨answers, hfollows, -⟩ := h.of_job hj
  have hleft := (hfollows.asks (calls r).asks_operation).1
  cases hleft with
  | store hcall hnext => exact hcall

/-- Creates do not name the id of the task. -/
def GeneratedIds (calls : ι → ServiceCall) : Prop :=
  ∀ r draft, calls r = .create draft → draft.id = none

omit [DecidableEq ι] in
theorem GeneratedIds.leavesId (h : GeneratedIds calls) {call : StoreCall}
    (hask : (calls r).MayAsk call) : call.LeavesId := by
  cases call with
  | create draft =>
    cases hcall : calls r with
    | create draft' =>
      rw [hcall] at hask
      have hid : draft.id = draft'.id := hask
      have hnone : draft'.id = none := h r draft' hcall
      exact hid.trans hnone
    | _ =>
      rw [hcall] at hask
      cases hask
  | _ => trivial

theorem settled_step (hcreates : GeneratedIds calls) (h : Settled c n calls trace p)
    (honce : StartedOnce (trace ++ [e])) (hstep : Step (making none calls) c p e q)
    (hids : q.world.ids ≤ n) : Settled c n calls (trace ++ [e]) q := by
  have hcourses := courses_step h.courses honce hstep
  by_cases hstore : ∃ r call reply time, e = .store r call reply time
  · obtain ⟨r, call, reply, time, rfl⟩ := hstore
    obtain ⟨⟨next, since, hj⟩, hanswer⟩ := hstep.of_store
    have hcall : call.LeavesId := hcreates.leavesId (mayAsk_of_job h.courses hj)
    refine ⟨hcourses, ordered_answers h.ordered hcall hanswer hids, ?_⟩
    intro id hdeleted
    rcases happened_snoc.1 hdeleted with hold | ⟨d, time', hnew⟩
    · exact gone_answers (h.gone id hold) hcall hanswer hids
    · cases hnew
      exact gone_of_deletes h.ordered hanswer
  · obtain ⟨htable, hsame⟩ :=
      hstep.table_eq fun r call reply time he => hstore ⟨r, call, reply, time, he⟩
    refine ⟨hcourses, ⟨?_, ?_, ?_⟩, ?_⟩
    · rw [htable]
      exact h.ordered.own
    · rw [hsame]
      exact h.ordered.distinct
    · rw [htable, hsame]
      exact h.ordered.unused
    · intro id hdeleted
      rcases happened_snoc.1 hdeleted with hold | ⟨d, time', hnew⟩
      · refine ⟨?_, ?_⟩
        · rw [htable]
          exact (h.gone id hold).absent
        · rw [hsame]
          exact (h.gone id hold).retired
      · exact absurd ⟨d, _, _, time', hnew⟩ hstore

/-- From the delete of a task on every call is answered as if there had never been one. -/
theorem ignores_step (hcreates : GeneratedIds calls) (h : Settled c n calls trace p)
    (hdeleted : Happened (Deletes id) trace) {call : StoreCall} {reply : call.Reply} {time : Nat}
    (hallowed : undisturbed c calls p (.store r call reply time))
    (hstep : Step (making none calls) c p (.store r call reply time) q) (hids : q.world.ids ≤ n) :
    Ignores id call reply p.world.table q.world.table := by
  obtain ⟨⟨next, since, hj⟩, hanswer⟩ := hstep.of_store
  have hcall : call.LeavesId := hcreates.leavesId (mayAsk_of_job h.courses hj)
  exact ignores_answers h.ordered (h.gone id hdeleted) hcall hanswer hids hallowed

/-! ## Updates -/

/-- What is seen of an update, and what is left of it. -/
inductive Updating (patch : Patch) (r : ι) :
    List (Event (Learns ι)) → Operation (Learns ι r) → Prop where
  | begun : Updating patch r []
      (.store (.get patch.id) fun reply => (afterLoad patch reply).map (·.map .task))
  | loaded (reply : StoreCall.Reply (.get patch.id)) (time : Nat) :
      Updating patch r [.store r (.get patch.id) reply time]
        ((afterLoad patch reply).map (·.map .task))
  | stored {task made : Task} (hmerge : patch.merge task = .ok made)
      (reply : StoreCall.Reply (.update made)) (time time' : Nat) :
      Updating patch r
        [.store r (.get patch.id) (.ok task) time, .store r (.update made) reply time']
        ((afterStore patch reply).map (·.map .task))
  | readBack {task made : Task} (hmerge : patch.merge task = .ok made)
      (reply : StoreCall.Reply (.get patch.id)) (time time' time'' : Nat) :
      Updating patch r
        [.store r (.get patch.id) (.ok task) time, .store r (.update made) (.ok ()) time',
          .store r (.get patch.id) reply time'']
        (.done (reply.map .task))

theorem update_operation (patch : Patch) :
    (ServiceCall.update patch).operation none
      = .store (.get patch.id) fun reply => (afterLoad patch reply).map (·.map .task) := by
  rw [ServiceCall.operation, update_eq]
  rfl

/-- How an update is refused that finds its task gone: by its patch, or else because of that. -/
def refusal (patch : Patch) (task : Task) : TaskError :=
  match patch.merge task with
  | .ok _ => .notFound patch.id
  | .error e => e

section Updating

variable {patch : Patch} {answers : List (Event (Learns ι))} {left : Operation (Learns ι r)}

omit [DecidableEq ι]

/-- An update that has been answered with the task, or refused, ends or stores what it has made. -/
theorem follows_afterLoad (reply : Except TaskError Task)
    (h : Follows r ((afterLoad patch reply).map (·.map .task)) answers left) :
    (answers = [] ∧ left = (afterLoad patch reply).map (·.map .task))
      ∨ ∃ task made stored time rest, reply = .ok task ∧ patch.merge task = .ok made
        ∧ answers = .store r (.update made) stored time :: rest
        ∧ Follows r ((afterStore patch stored).map (·.map .task)) rest left := by
  cases reply with
  | error e => exact Or.inl h.of_done
  | ok task =>
    cases hmerge : patch.merge task with
    | error e =>
      have hrefused : (afterLoad patch (.ok task)).map (·.map ServiceAnswer.task)
          = .done (.error e) := by
        simp only [afterLoad, hmerge]
        rfl
      rw [hrefused] at h ⊢
      exact Or.inl h.of_done
    | ok made =>
      have hmade : (afterLoad patch (.ok task)).map (·.map ServiceAnswer.task)
          = .store (.update made) fun reply => (afterStore patch reply).map (·.map .task) := by
        simp only [afterLoad, hmerge]
        rfl
      rw [hmade] at h ⊢
      rcases h.of_store with hwaits | ⟨stored, time, rest, hanswers, hstored⟩
      · exact Or.inl hwaits
      · exact Or.inr ⟨task, made, stored, time, rest, rfl, hmerge, hanswers, hstored⟩

/-- An update that has stored its result reads it back. -/
theorem follows_afterStore (stored : Except TaskError Unit)
    (h : Follows r ((afterStore patch stored).map (·.map .task)) answers left) :
    (answers = [] ∧ left = (afterStore patch stored).map (·.map .task))
      ∨ ∃ reply time, stored = .ok () ∧ answers = [.store r (.get patch.id) reply time]
        ∧ left = .done (reply.map .task) := by
  cases stored with
  | error e => exact Or.inl h.of_done
  | ok done =>
    rcases h.of_store with hwaits | ⟨reply, time, rest, rfl, hread⟩
    · exact Or.inl hwaits
    · obtain ⟨rfl, rfl⟩ := hread.of_done
      exact Or.inr ⟨reply, time, rfl, rfl, rfl⟩

theorem updating_of_follows
    (h : Follows r ((ServiceCall.update patch).operation none) answers left) :
    Updating patch r answers left := by
  rw [update_operation] at h
  rcases h.of_store with ⟨rfl, rfl⟩ | ⟨loaded, time, rest, rfl, hload⟩
  · exact .begun
  rcases follows_afterLoad loaded hload with
    ⟨rfl, rfl⟩ | ⟨task, made, stored, time', rest, rfl, hmerge, rfl, hstore⟩
  · exact .loaded loaded time
  rcases follows_afterStore stored hstore with ⟨rfl, rfl⟩ | ⟨reply, time'', rfl, rfl, rfl⟩
  · exact .stored hmerge stored time time'
  · exact .readBack hmerge reply time time' time''

/-- What an update stores it has made of the task that it has loaded. -/
theorem Updating.merged (h : Updating patch r answers left) {made : Task}
    {reply : StoreCall.Reply (.update made)} {time : Nat}
    (hmem : Event.store r (.update made) reply time ∈ answers) :
    ∃ task time', patch.merge task = .ok made
      ∧ Event.store r (.get patch.id) (.ok task) time' ∈ answers := by
  cases h with
  | begun => cases hmem
  | loaded reply time => simp at hmem
  | @stored task made hmerge stored time time' =>
    simp only [List.mem_cons, List.not_mem_nil, or_false] at hmem
    rcases hmem with heq | heq
    · cases heq
    · cases heq
      exact ⟨task, time, hmerge, List.mem_cons_self⟩
  | @readBack task made hmerge back time time' time'' =>
    simp only [List.mem_cons, List.not_mem_nil, or_false] at hmem
    rcases hmem with heq | heq | heq
    · cases heq
    · cases heq
      exact ⟨task, time, hmerge, List.mem_cons_self⟩
    · cases heq

/-- An update that has loaded the task and finds it gone when it stores the result is refused. -/
theorem Updating.refused (h : Updating patch r answers left) {task : Task} {time : Nat}
    (hloaded : Event.store r (.get patch.id) (.ok task) time ∈ answers)
    (hgone : ∀ made reply time', Event.store r (.update made) reply time' ∈ answers →
      reply = .error (.notFound patch.id)) :
    left = .done (.error (refusal patch task))
      ∨ ∃ made next, patch.merge task = .ok made ∧ left = .store (.update made) next := by
  cases h with
  | begun => cases hloaded
  | loaded reply time' =>
    cases List.mem_singleton.1 hloaded
    unfold refusal
    cases hmerge : patch.merge task with
    | error e =>
      left
      simp only [afterLoad, hmerge]
      rfl
    | ok made =>
      right
      simp only [afterLoad, hmerge]
      exact ⟨made, _, rfl, rfl⟩
  | @stored task' made hmerge reply time' time'' =>
    have hreply := hgone made reply time'' (by simp)
    have htask : task = task' := by
      simp only [List.mem_cons, List.not_mem_nil, or_false] at hloaded
      rcases hloaded with heq | heq
      · cases heq
        rfl
      · cases heq
    left
    rw [hreply, htask, refusal, hmerge]
    rfl
  | @readBack task' made hmerge back time' time'' time''' =>
    -- the result would have been stored
    cases hgone made (.ok ()) time'' (by simp)

end Updating

/-! ## Deletes -/

/-- What is left of a delete that has been answered. -/
def afterDelete (id : String) : Except TaskError Bool → Operation ServiceCall.Outcome
  | .error e => .done (.error e)
  | .ok false => .done (.error (.notFound id))
  | .ok true => .gauge .decrement (.done (.ok .deleted))

theorem delete_operation (id : String) :
    (ServiceCall.delete id).operation none = .store (.delete id) (afterDelete id) := by
  refine congrArg (Operation.store (.delete id)) (funext fun reply => ?_)
  rcases reply with e | _ | _ <;> rfl

/-- Nobody but a delete of the id asks for one. -/
theorem delete_of_mayAsk {call : ServiceCall} (h : call.MayAsk (.delete id)) :
    call = .delete id := by
  cases call with
  | delete key =>
    have hid : id = key := h
    rw [hid]
  | _ => cases h

omit [DecidableEq ι] in
/-- After its one answer a delete goes well exactly if it has taken the task away. -/
theorem follows_afterDelete {reply : Except TaskError Bool} {rest : List (Event (Learns ι))}
    {value : ServiceCall.Outcome} (h : Follows d (afterDelete id reply) rest (.done value)) :
    (value = .ok .deleted ↔ reply = .ok true)
      ∧ ∀ reply' time, Event.store d (.delete id) reply' time ∉ rest := by
  rcases reply with e | _ | _
  · obtain ⟨rfl, hvalue⟩ := h.of_done
    cases hvalue
    simp
  · obtain ⟨rfl, hvalue⟩ := h.of_done
    cases hvalue
    simp
  · rcases h.of_gauge with ⟨-, hwaits⟩ | ⟨rest, rfl, hcounted⟩
    · cases hwaits
    · obtain ⟨rfl, hvalue⟩ := hcounted.of_done
      cases hvalue
      simp

/-- A delete that has ended has been answered once, and has gone well exactly if it has taken the
task away. -/
theorem ends_of_delete (h : Courses (making none calls) trace p) (hcall : calls d = .delete id)
    {value : ServiceCall.Outcome} (hends : Event.ends d value ∈ trace) :
    ∃ reply, (∃ time, Event.store d (.delete id) reply time ∈ trace)
      ∧ (value = .ok .deleted ↔ reply = .ok true)
      ∧ ∀ reply' time, Event.store d (.delete id) reply' time ∈ trace → reply' = reply := by
  obtain ⟨answers, hfollows, hanswers⟩ := h.of_ends hends
  have hop : making none calls d = .store (.delete id) (afterDelete id) := by
    rw [making, hcall, delete_operation]
  have hmem : ∀ reply time, Event.store d (.delete id) reply time ∈ trace
      ↔ Event.store d (.delete id) reply time ∈ answers := by
    intro reply time
    rw [← hanswers _ rfl]
    exact ⟨fun hmem => mem_own.2 ⟨hmem, rfl⟩, fun hmem => (mem_own.1 hmem).1⟩
  rw [hop] at hfollows
  rcases hfollows.of_store with ⟨-, hwaits⟩ | ⟨reply, time, rest, rfl, hrest⟩
  · cases hwaits
  obtain ⟨hvalue, hnone⟩ := follows_afterDelete hrest
  refine ⟨reply, ⟨time, (hmem reply time).2 List.mem_cons_self⟩, hvalue, ?_⟩
  intro reply' time' hmem'
  rcases List.mem_cons.1 ((hmem reply' time').1 hmem') with heq | hlater
  · cases heq
    rfl
  · exact absurd hlater (hnone reply' time')

omit [DecidableEq ι] in
/-- A task stays unless it is deleted. -/
theorem stored_answers {time : Nat} (hstored : w.table.get? id ≠ none)
    (hanswer : StoreAnswers c call w reply w')
    (hkeeps : ¬ Deletes id (.store d call reply time : Event (Learns ι))) :
    w'.table.get? id ≠ none := by
  cases hanswer with
  | fails e => exact hstored
  | performs =>
    have hinsert : ∀ (key : String) (task : Task), (w.table.insert key task).get? id ≠ none := by
      intro key task
      rw [Keyed.get?_insert]
      split
      · simp
      · exact hstored
    cases call with
    | create draft =>
      simp only [World.performStore, Table.perform]
      split
      · exact hstored
      · exact hinsert _ _
    | update task =>
      simp only [World.performStore, Table.perform]
      split
      · exact hinsert _ _
      · exact hstored
    | delete key =>
      have hother : id ≠ key := by
        rintro rfl
        refine hkeeps ⟨d, time, ?_⟩
        have hfound : w.table.contains id = true := by
          rw [Keyed.contains, Option.isSome_iff_ne_none]
          exact hstored
        simp [World.performStore, Table.perform, hfound]
      simp only [World.performStore, Table.perform, Keyed.get?_erase, if_neg hother]
      exact hstored
    | get key => rwa [World.table_performStore rfl w]
    | list q => exact hstored
    | count => exact hstored
    | countFiltered f => exact hstored

omit [DecidableEq ι] in
/-- A task stays unless it is deleted. -/
theorem stored_run {p₀ : Pool (Learns ι)}
    (hrun : Runs (making none calls) c (undisturbed c calls) p₀ trace p)
    (hstored : p₀.world.table.get? id ≠ none) (hkeeps : ¬ Happened (Deletes id) trace) :
    p.world.table.get? id ≠ none := by
  induction hrun with
  | nil => exact hstored
  | @snoc trace q q' e hrun hallowed hstep ih =>
    have hbefore := ih fun h => hkeeps h.snoc
    have hnow : ¬ Deletes id e := fun h => hkeeps (happened_snoc.2 (Or.inr h))
    by_cases hstore : ∃ r call reply time, e = .store r call reply time
    · obtain ⟨r, call, reply, time, rfl⟩ := hstore
      exact stored_answers hbefore hstep.of_store.2 hnow
    · obtain ⟨htable, -⟩ :=
        hstep.table_eq fun r call reply time he => hstore ⟨r, call, reply, time, he⟩
      rwa [htable]

omit [DecidableEq ι] in
/-- Once the store has answered one of the deletes of a stored task, one of them has taken it
away. -/
theorem exists_deletes {p₀ : Pool (Learns ι)} {after : List (Event (Learns ι))}
    (hrest : Runs (making none calls) c (undisturbed c calls) p₀ after p)
    (hstored : p₀.world.table.get? id ≠ none) {reply : StoreCall.Reply (.delete id)} {time : Nat}
    (hasked : Event.store d (.delete id) reply time ∈ after) : Happened (Deletes id) after := by
  refine Classical.byContradiction fun hkeeps => ?_
  obtain ⟨a, b, rfl⟩ := List.append_of_mem hasked
  obtain ⟨p₁, p₂, hfirst, hallowed, -, -⟩ := hrest.split
  have hstored' : p₁.world.table.get? id ≠ none := by
    refine stored_run hfirst hstored ?_
    rintro ⟨e, he, hdeletes⟩
    exact hkeeps ⟨e, List.mem_append_left _ he, hdeletes⟩
  have hfound : p₁.world.table.contains id = true := by
    rw [Keyed.contains, Option.isSome_iff_ne_none]
    exact hstored'
  have hreply : reply = .ok true := by
    have hperformed : reply = (p₁.world.performStore c (.delete id)).1 := hallowed
    rw [hperformed, ← hfound]
    rfl
  rw [hreply] at hkeeps
  exact hkeeps ⟨_, by simp, d, time, rfl⟩

/-! ## Runs -/

/-- The update of `u` has loaded the task and has not stored its result when the task is deleted. -/
def Overtaken (u : ι) (patch : Patch) (task : Task) (trace : List (Event (Learns ι))) : Prop :=
  ∃ before after d time time',
    trace = before ++ .store d (.delete patch.id) (.ok true) time :: after
      ∧ Event.store u (.get patch.id) (.ok task) time' ∈ before
      ∧ ∀ made reply time, Event.store u (.update made) reply time ∉ before

/-- The update of `u` stores nothing and fails. -/
structure InVain (u : ι) (patch : Patch) (task : Task) (trace : List (Event (Learns ι)))
    (p : Pool (Learns ι)) : Prop where
  refused : ∀ made reply time, Event.store u (.update made) reply time ∈ trace →
    made.id = patch.id ∧ reply = .error (.notFound patch.id)
  fails : ∀ value, Event.ends u value ∈ trace → value = .error (refusal patch task)
  /-- It is about to fail, or to be refused, or it has ended. -/
  progress : (∃ j ∈ p.jobs, j.request = u ∧ (j.left = .done (.error (refusal patch task))
      ∨ ∃ made next, patch.merge task = .ok made ∧ j.left = .store (.update made) next))
    ∨ ∃ value, Event.ends u value ∈ trace

section Run

variable (hcreates : GeneratedIds calls) (hordered : Ordered c n w)

include hcreates hordered

theorem settled_run (honce : StartedOnce trace)
    (hrun : Runs (making none calls) c (undisturbed c calls) ⟨w, []⟩ trace p)
    (hids : p.world.ids ≤ n) : Settled c n calls trace p := by
  induction hrun with
  | nil =>
    have hnil : Runs (making none calls) c (undisturbed c calls) ⟨w, []⟩ [] ⟨w, []⟩ := .nil
    exact ⟨courses_run honce hnil, hordered, fun id h => absurd h not_happened_nil⟩
  | snoc hrun hallowed hstep ih =>
    have hbefore := Nat.le_trans hstep.ids_le hids
    exact settled_step hcreates (ih honce.of_append hbefore) honce hstep hids

variable (honce : StartedOnce trace)
  (hrun : Runs (making none calls) c (undisturbed c calls) ⟨w, []⟩ trace p)
  (hids : p.world.ids ≤ n)

include honce hrun hids

/-- A store call that is answered after the delete of a task. -/
theorem ignores_later {before after : List (Event (Learns ι))}
    (htrace : trace = before ++ after) (hdeleted : Happened (Deletes id) before)
    {call : StoreCall} {reply : call.Reply} {time : Nat}
    (hmem : Event.store r call reply time ∈ after) :
    ∃ t t', Ignores id call reply t t' := by
  obtain ⟨between, rest, rfl⟩ := List.append_of_mem hmem
  have hparts : trace = (before ++ between) ++ .store r call reply time :: rest := by
    rw [htrace, List.append_assoc]
  rw [hparts] at hrun honce
  obtain ⟨p₁, p₂, hfirst, hallowed, hstep, hrest⟩ := hrun.split
  have hids' : p₂.world.ids ≤ n := Nat.le_trans hrest.ids_le hids
  have honce' : StartedOnce (before ++ between) := honce.of_append
  obtain ⟨e, he, hdeletes⟩ := hdeleted
  have hdeleted' : Happened (Deletes id) (before ++ between) :=
    ⟨e, List.mem_append_left _ he, hdeletes⟩
  have hsettled := settled_run hcreates hordered honce' hfirst (Nat.le_trans hstep.ids_le hids')
  exact ⟨_, _, ignores_step hcreates hsettled hdeleted' hallowed hstep hids'⟩

/-- No task is deleted twice. -/
theorem deletes_once {before after : List (Event (Learns ι))} {time : Nat}
    (htrace : trace = before ++ after) (hdeleted : Happened (Deletes id) before) :
    Event.store d (.delete id) (.ok true) time ∉ after := by
  intro hmem
  obtain ⟨t, t', hignores⟩ := ignores_later hcreates hordered honce hrun hids htrace hdeleted hmem
  have hreply : (Except.ok true : StoreCall.Reply (.delete id)) = .ok false := hignores.answer rfl
  cases hreply

/-- A task that is read has the id that was asked for. -/
theorem id_of_get {key : String} {task : Task} {time : Nat}
    (hmem : Event.store r (.get key) (.ok task) time ∈ trace) : task.id = key := by
  obtain ⟨before, after, rfl⟩ := List.append_of_mem hmem
  obtain ⟨p₁, p₂, hfirst, hallowed, hstep, hrest⟩ := hrun.split
  have hids' : p₁.world.ids ≤ n := Nat.le_trans hstep.ids_le (Nat.le_trans hrest.ids_le hids)
  have hsettled := settled_run hcreates hordered honce.of_append hfirst hids'
  have hreply : (Except.ok task : StoreCall.Reply (.get key))
      = (p₁.world.performStore c (.get key)).1 := hallowed
  simp only [World.performStore, Table.perform] at hreply
  cases hget : p₁.world.table.get? key with
  | none =>
    rw [hget] at hreply
    cases hreply
  | some found =>
    rw [hget] at hreply
    obtain rfl := Except.ok.inj hreply
    exact hsettled.ordered.own key _ hget

/-! ### An update that comes too late -/

variable {u : ι} {patch : Patch} {task : Task}

/-- What an update makes has the id of its task. -/
theorem id_of_write (hcall : calls u = .update patch) {made : Task}
    {reply : StoreCall.Reply (.update made)} {time : Nat}
    (hmem : Event.store u (.update made) reply time ∈ trace) : made.id = patch.id := by
  have hsettled := settled_run hcreates hordered honce hrun hids
  obtain ⟨left, hcourse⟩ := hsettled.courses.course u
  obtain ⟨answers, left', hfollows, hanswers⟩ := hcourse.follows
  have hop : making none calls u = (ServiceCall.update patch).operation none := by
    rw [making, hcall]
  rw [hop] at hfollows
  have hown := (hanswers _ rfl).1 (mem_own.2 ⟨hmem, rfl⟩)
  obtain ⟨task', time', hmerge, hget⟩ := (updating_of_follows hfollows).merged hown
  have hloaded := (mem_own.1 ((hanswers _ rfl).2 hget)).1
  exact (Patch.merge_frame hmerge).1.trans (id_of_get hcreates hordered honce hrun hids hloaded)

/-- An update that has not written its result when its task is deleted cannot do so any more. -/
theorem write_refused {before after : List (Event (Learns ι))} {time : Nat}
    (htrace : trace = before ++ .store d (.delete patch.id) (.ok true) time :: after)
    (hcall : calls u = .update patch)
    (hunwritten : ∀ made reply time, Event.store u (.update made) reply time ∉ before)
    {made : Task} {reply : StoreCall.Reply (.update made)} {time' : Nat}
    (hmem : Event.store u (.update made) reply time' ∈ trace) :
    reply = .error (.notFound patch.id) := by
  have hid := id_of_write hcreates hordered honce hrun hids hcall hmem
  have hafter : Event.store u (.update made) reply time' ∈ after := by
    rw [htrace] at hmem
    rcases List.mem_append.1 hmem with hbefore | hafter
    · exact absurd hbefore (hunwritten made reply time')
    · rcases List.mem_cons.1 hafter with heq | hafter
      · cases heq
      · exact hafter
  have hparts : trace = (before ++ [.store d (.delete patch.id) (.ok true) time]) ++ after := by
    simp [htrace]
  have hdeleted : Happened (Deletes patch.id)
      (before ++ [.store d (.delete patch.id) (.ok true) time]) :=
    happened_snoc.2 (Or.inr ⟨d, time, rfl⟩)
  obtain ⟨t, t', hignores⟩ := ignores_later hcreates hordered honce hrun hids hparts hdeleted hafter
  exact hignores.answer hid

/-- Such an update is about to write in vain, or it ends or has ended with an error. -/
theorem refused_of_loaded {before after : List (Event (Learns ι))} {time time' : Nat}
    (htrace : trace = before ++ .store d (.delete patch.id) (.ok true) time :: after)
    (hcall : calls u = .update patch)
    (hloaded : Event.store u (.get patch.id) (.ok task) time' ∈ before)
    (hunwritten : ∀ made reply time, Event.store u (.update made) reply time ∉ before) :
    ((∃ j ∈ p.jobs, j.request = u ∧ (j.left = .done (.error (refusal patch task))
          ∨ ∃ made next, patch.merge task = .ok made ∧ j.left = .store (.update made) next))
        ∨ ∃ value, Event.ends u value ∈ trace)
      ∧ ∀ value, Event.ends u value ∈ trace → value = .error (refusal patch task) := by
  have hsettled := settled_run hcreates hordered honce hrun hids
  have hop : making none calls u = (ServiceCall.update patch).operation none := by
    rw [making, hcall]
  have hget : Event.store u (.get patch.id) (.ok task) time' ∈ own u trace := by
    rw [htrace]
    exact mem_own.2 ⟨List.mem_append_left _ hloaded, rfl⟩
  have hgone : ∀ made reply time, Event.store u (.update made) reply time ∈ own u trace →
      reply = .error (.notFound patch.id) := fun made reply time hmem =>
    write_refused hcreates hordered honce hrun hids htrace hcall hunwritten (mem_own.1 hmem).1
  -- what is left of the update, however far it has come
  have hleft : ∀ answers left, Follows u (making none calls u) answers left →
      (∀ e, e.isAnswer = true → (e ∈ own u trace ↔ e ∈ answers)) →
      left = .done (.error (refusal patch task))
        ∨ ∃ made next, patch.merge task = .ok made ∧ left = .store (.update made) next := by
    intro answers left hfollows hanswers
    rw [hop] at hfollows
    refine (updating_of_follows hfollows).refused ((hanswers _ rfl).1 hget) ?_
    intro made reply time hmem
    exact hgone made reply time ((hanswers _ rfl).2 hmem)
  constructor
  · by_cases hbusy : ∃ j ∈ p.jobs, j.request = u
    · obtain ⟨j, hj, rfl⟩ := hbusy
      obtain ⟨answers, hfollows, hanswers⟩ := hsettled.courses.of_job hj
      exact Or.inl ⟨j, hj, rfl, hleft answers j.left hfollows hanswers⟩
    · right
      have hbegun : own u trace ≠ [] := List.ne_nil_of_mem hget
      have hidle : ∀ j ∈ p.jobs, j.request ≠ u := fun j hj hu => hbusy ⟨j, hj, hu⟩
      rcases hsettled.courses.ended_or_dropped hbegun hidle with hends | hdrops
      · exact hends
      · -- only a side of a list may be dropped
        obtain ⟨q, hside⟩ := hrun.allowed_of_mem hdrops
        have hside' : (calls u).isSide = true := hside
        rw [hcall] at hside'
        cases hside'
  · intro value hends
    obtain ⟨answers, hfollows, hanswers⟩ := hsettled.courses.of_ends hends
    rcases hleft answers _ hfollows hanswers with hdone | ⟨made, next, -, hstore⟩
    · exact Operation.done.inj hdone
    · cases hstore

theorem inVain_of_overtaken (hcall : calls u = .update patch)
    (hovertaken : Overtaken u patch task trace) : InVain u patch task trace p := by
  obtain ⟨before, after, d, time, time', htrace, hloaded, hunwritten⟩ := hovertaken
  obtain ⟨hprogress, hfails⟩ :=
    refused_of_loaded hcreates hordered honce hrun hids htrace hcall hloaded hunwritten
  refine ⟨?_, hfails, hprogress⟩
  intro made reply time hmem
  exact ⟨id_of_write hcreates hordered honce hrun hids hcall hmem,
    write_refused hcreates hordered honce hrun hids htrace hcall hunwritten hmem⟩

/-! ### One delete of many -/

/-- No two callers take the same task away. -/
theorem deleter_unique {d' : ι} {time time' : Nat}
    (hmem : Event.store d (.delete id) (.ok true) time ∈ trace)
    (hmem' : Event.store d' (.delete id) (.ok true) time' ∈ trace) : d = d' := by
  have honly : ∀ {d d' : ι} {time time' : Nat} {a b : List (Event (Learns ι))},
      trace = a ++ .store d (.delete id) (.ok true) time :: b →
      Event.store d' (.delete id) (.ok true) time' ∉ b := by
    intro d d' time time' a b htrace
    have hparts : trace = (a ++ [.store d (.delete id) (.ok true) time]) ++ b := by simp [htrace]
    exact deletes_once hcreates hordered honce hrun hids hparts
      (happened_snoc.2 (Or.inr ⟨d, time, rfl⟩))
  obtain ⟨a, b, htrace⟩ := List.append_of_mem hmem
  rw [htrace] at hmem'
  rcases List.mem_append.1 hmem' with hbefore | hafter
  · -- the other one came first
    obtain ⟨a₁, a₂, rfl⟩ := List.append_of_mem hbefore
    have hparts : trace = a₁ ++ .store d' (.delete id) (.ok true) time'
        :: (a₂ ++ .store d (.delete id) (.ok true) time :: b) := by simp [htrace]
    exact absurd (List.mem_append_right _ List.mem_cons_self) (honly hparts)
  · rcases List.mem_cons.1 hafter with heq | hafter
    · cases heq
      rfl
    · exact absurd hafter (honly htrace)

/-- Once the store has answered one of the deletes of a stored task, and all of them have ended,
exactly one has gone well. -/
theorem one_of_deletes {before after : List (Event (Learns ι))} {p₀ : Pool (Learns ι)}
    (htrace : trace = before ++ after)
    (hrest : Runs (making none calls) c (undisturbed c calls) p₀ after p)
    (hstored : p₀.world.table.get? id ≠ none)
    (hasked : ∃ d reply time, Event.store d (.delete id) reply time ∈ after)
    (hended : ∀ d, calls d = .delete id → Event.starts d ∈ trace →
      ∃ value, Event.ends d value ∈ trace) :
    ∃! d, calls d = .delete id ∧ Event.ends d (.ok .deleted) ∈ trace := by
  have hcourses := (settled_run hcreates hordered honce hrun hids).courses
  obtain ⟨d₀, reply, time, hmem⟩ := hasked
  obtain ⟨e, he, d, time', rfl⟩ := exists_deletes hrest hstored hmem
  have htakes : Event.store d (.delete id) (.ok true) time' ∈ trace := by
    rw [htrace]
    exact List.mem_append_right _ he
  have hcall : calls d = .delete id :=
    delete_of_mayAsk (hcourses.of_store (calls d).asks_operation htakes)
  -- whoever takes the task away is told so
  obtain ⟨value, hends⟩ := hended d hcall (hcourses.begun (mem_own.2 ⟨htakes, rfl⟩))
  obtain ⟨answer, -, hvalue, honly⟩ := ends_of_delete hcourses hcall hends
  have hanswer : (Except.ok true : StoreCall.Reply (.delete id)) = answer := honly _ time' htakes
  rw [hvalue.2 hanswer.symm] at hends
  refine ⟨d, ⟨hcall, hends⟩, ?_⟩
  rintro d' ⟨hcall', hends'⟩
  obtain ⟨answer', ⟨time'', htakes'⟩, hvalue', -⟩ := ends_of_delete hcourses hcall' hends'
  rw [hvalue'.1 rfl] at htakes'
  exact deleter_unique hcreates hordered honce hrun hids htakes' htakes

end Run

/-! ## All of it -/

/-- Once the store has deleted a task, there is none with its id any more, and every store call is
answered as if there had never been one. An update that was about to store what it had made of the
task fails. Of all deletes of a stored task exactly one goes well. -/
theorem deletion_final (hcreates : GeneratedIds calls) (hordered : Ordered c n w)
    (honce : StartedOnce trace)
    (hrun : Runs (making none calls) c (undisturbed c calls) ⟨w, []⟩ trace p)
    (hids : p.world.ids ≤ n) :
    (∀ id, Happened (Deletes id) trace → p.world.table.get? id = none
        ∧ ∀ (r : ι) (call : StoreCall) (reply : call.Reply) (time : Nat) (q : Pool (Learns ι)),
          undisturbed c calls p (.store r call reply time) →
          Step (making none calls) c p (.store r call reply time) q → q.world.ids ≤ n →
          Ignores id call reply p.world.table q.world.table)
      ∧ (∀ u patch task, calls u = .update patch → Overtaken u patch task trace →
        InVain u patch task trace p)
      ∧ ∀ id before after p₀, trace = before ++ after →
        Runs (making none calls) c (undisturbed c calls) ⟨w, []⟩ before p₀ →
        Runs (making none calls) c (undisturbed c calls) p₀ after p →
        p₀.world.table.get? id ≠ none →
        (∃ d reply time, Event.store d (.delete id) reply time ∈ after) →
        (∀ d, calls d = .delete id → Event.starts d ∈ trace →
          ∃ value, Event.ends d value ∈ trace) →
        ∃! d, calls d = .delete id ∧ Event.ends d (.ok .deleted) ∈ trace := by
  have hsettled := settled_run hcreates hordered honce hrun hids
  refine ⟨?later, ?updates, ?deletes⟩
  case later =>
    intro id hdeleted
    refine ⟨(hsettled.gone id hdeleted).absent, ?_⟩
    intro r call reply time q hallowed hstep hids'
    exact ignores_step hcreates hsettled hdeleted hallowed hstep hids'
  case updates =>
    intro u patch task hcall hovertaken
    exact inVain_of_overtaken hcreates hordered honce hrun hids hcall hovertaken
  case deletes =>
    intro id before after p₀ htrace _ hrest hstored hasked hended
    exact one_of_deletes hcreates hordered honce hrun hids htrace hrest hstored hasked hended

/-! ### A race

A task is deleted by two callers while a third updates it, and a fourth is about to create
another. -/

namespace Race

def conditions : Conditions := Probe.conditions {}

def task : Task := Draft.toTask { title := "x" } "t" ({} : World).now

def completing : Patch := { id := "t", completed := some true }

def racers : Fin 4 → ServiceCall
  | 0 => .update completing
  | 3 => .create { title := "y" }
  | _ => .delete "t"

def start : World := { table := Keyed.empty.insert task.id task, gauge := 1 }

/-- The world after the delete. -/
def emptied : World := { start with table := .empty }

/-- What comes before the delete. -/
def head : List (Event (Learns (Fin 4))) :=
  [.starts 3, .starts 2, .starts 1, .starts 0, .store 0 (.get "t") (.ok task) 0]

/-- What comes after it. -/
def rest : List (Event (Learns (Fin 4))) :=
  [.store 2 (.delete "t") (.ok false) 0,
    .store 0 (.update { task with completed := true }) (.error (.notFound "t")) 0,
    .gauge 1 .decrement, .ends 0 (.error (.notFound "t")), .ends 1 (.ok .deleted),
    .ends 2 (.error (.notFound "t"))]

def events : List (Event (Learns (Fin 4))) := head ++ .store 1 (.delete "t") (.ok true) 0 :: rest

def finish : Pool (Learns (Fin 4)) :=
  ⟨emptied.changeGauge .decrement, [⟨3, making none racers 3, 0⟩]⟩

theorem runs : Runs (making none racers) conditions (undisturbed conditions racers) ⟨start, []⟩
    events finish := by
  have hload : StoreAnswers conditions (.get "t") start (.ok task) start := .performs
  have hdelete : StoreAnswers conditions (.delete "t") start (.ok true) emptied := .performs
  have hmissed : StoreAnswers conditions (.delete "t") emptied (.ok false) emptied := .performs
  have hrefused : StoreAnswers conditions (.update { task with completed := true })
      emptied (.error (.notFound "t")) emptied := .performs
  have hstarts : Runs (making none racers) conditions (undisturbed conditions racers)
      ⟨start, []⟩ _ _ :=
    (((Runs.single trivial (.starts start [] 3)).snoc (by trivial) (.starts start _ 2)).snoc
      (by trivial) (.starts start _ 1)).snoc (by trivial) (.starts start _ 0)
  have hanswers := (((hstarts.snoc (by rfl) (.store (l := []) hload)).snoc (by rfl)
    (.store (l := [_]) hdelete)).snoc (by rfl) (.store (l := [_, _]) hmissed)).snoc (by rfl)
    (.store (l := []) hrefused)
  exact (((hanswers.snoc (by trivial) (.gauge (l := [_]))).snoc (by trivial)
    (.ends (l := []))).snoc (by trivial) (.ends (l := []))).snoc (by trivial) (.ends (l := []))

theorem generatedIds : GeneratedIds racers := by
  rintro ⟨r, hr⟩ draft h
  match r, hr with
  | 0, _ => cases h
  | 1, _ => cases h
  | 2, _ => cases h
  | 3, _ =>
    cases h
    rfl

theorem ordered : Ordered conditions 1 start := by
  refine ⟨((Table.each_empty fun _ => True).insert trivial).ownIds, ?_, ?_⟩
  · intro i hi j hj _
    have h1 : i < 1 := hi.2
    have h2 : j < 1 := hj.2
    omega
  · intro i _ hi
    obtain rfl : i = 0 := by omega
    rfl

/-- The task is gone for good, its update is in vain, and one of the two deletes goes well. -/
theorem deletion_final_racing :
    ∃ (q : Pool (Learns (Fin 4))) (new : Task),
      GeneratedIds racers ∧ Ordered conditions 1 start ∧ StartedOnce events
      ∧ Runs (making none racers) conditions (undisturbed conditions racers) ⟨start, []⟩
        events finish
      ∧ finish.world.ids ≤ 1 ∧ finish.world.table.get? "t" = none
      ∧ Ignores "t" (.create { title := "y" }) (.ok new) finish.world.table q.world.table
      ∧ InVain 0 completing task events finish
      ∧ ∃! d, racers d = .delete "t" ∧ Event.ends d (.ok .deleted) ∈ events := by
  have hdelete : Event.store 1 (.delete "t") (.ok true) 0 ∈ events := by simp [events]
  obtain ⟨hlater, hupdates, hdeletes⟩ :=
    deletion_final generatedIds ordered (by decide) runs (Nat.zero_le 1)
  obtain ⟨habsent, hignores⟩ := hlater "t" ⟨_, hdelete, 1, 0, rfl⟩
  have hcreated : StoreAnswers conditions (.create { title := "y" }) finish.world _ _ := .performs
  have hcreate := hignores 3 (.create { title := "y" }) _ 0 _ rfl (.store (l := []) hcreated)
    (Nat.le_refl 1)
  have hovertaken : Overtaken 0 completing task events :=
    ⟨head, rest, 1, 0, 0, rfl, by simp [head, completing], by simp [head]⟩
  have hended : ∀ d, racers d = .delete "t" → Event.starts d ∈ events →
      ∃ value, Event.ends d value ∈ events := by
    rintro ⟨d, hd⟩ hcall -
    match d, hd with
    | 0, _ => cases hcall
    | 1, _ => exact ⟨.ok .deleted, by simp [events, rest]⟩
    | 2, _ => exact ⟨.error (.notFound "t"), by simp [events, rest]⟩
    | 3, _ => cases hcall
  have hone := hdeletes "t" [] _ _ rfl .nil runs (by decide) ⟨1, _, _, hdelete⟩ hended
  exact ⟨_, _, generatedIds, ordered, by decide, runs, Nat.zero_le 1,
    habsent, hcreate, hupdates 0 completing task rfl hovertaken, hone⟩

end Race

end TaskBoard.Service
