import TaskBoard.Proofs.Run.Order
import TaskBoard.Proofs.Run.Pool
import TaskBoard.Proofs.Task.Fields
import TaskBoard.Service

/-!
# Two updates side by side

An update loads the task, merges its patch, stores the whole result and reads it back, and nothing
keeps another update out in between. So the stored task is always the result of one of the two, and
it tells what that one had loaded.

* `update_eq`: the parts of an update;
* `goes_load`, `goes_store`, `goes_read`: what each answer of the store leads to;
* `sideBySide_run`: what the stored task has been made of, in every interleaving.
-/

namespace TaskBoard.Service

open Run

/-! ## The parts of an update -/

/-- What is left of an update that has stored its result. -/
def afterStore (p : Patch) : Except TaskError Unit → Operation (Except TaskError Task)
  | .error e => .done (.error e)
  | .ok () => .store (.get p.id) .done

/-- What is left of an update that has loaded the task. -/
def afterLoad (p : Patch) : Except TaskError Task → Operation (Except TaskError Task)
  | .error e => .done (.error e)
  | .ok task =>
    match p.merge task with
    | .error e => .done (.error e)
    | .ok task => .store (.update task) (afterStore p)

theorem update_eq (p : Patch) : update none p = .store (.get p.id) (afterLoad p) := by
  unfold update
  refine congrArg (Operation.store (.get p.id)) (funext fun reply => ?_)
  cases reply with
  | error e => rfl
  | ok task =>
    unfold afterLoad
    simp only [Operation.done_bind]
    cases p.merge task with
    | error e => rfl
    | ok merged =>
      refine congrArg (Operation.store (.update merged)) (funext fun stored => ?_)
      cases stored <;> rfl

/-! ## Side by side -/

/-- Two callers. -/
inductive Caller where
  | first
  | second
deriving DecidableEq, Repr

/-- The one who is not this one. -/
def Caller.other : Caller → Caller
  | first => second
  | second => first

theorem Caller.eq_or_eq_other (r s : Caller) : s = r ∨ s = r.other := by
  cases r <;> cases s <;> decide

@[simp] theorem Caller.other_other (r : Caller) : r.other.other = r := by
  cases r <;> rfl

theorem Caller.ne_other (r : Caller) : r ≠ r.other := by
  cases r <;> decide

/-- What a caller gets. -/
abbrev Updated (_ : Caller) : Type := Except TaskError Task

/-- Each caller asks for an update with a patch of its own. -/
def updates (patch : Caller → Patch) (r : Caller) : Operation (Updated r) := update none (patch r)

/-- A caller is about to begin. -/
def starting (patch : Caller → Patch) (r : Caller) (time : Nat) : Job Updated :=
  ⟨r, updates patch r, time⟩

/-- Both callers are about to begin. -/
def sideBySide (patch : Caller → Patch) (w : World) : Pool Updated :=
  ⟨w, [starting patch .first w.timer, starting patch .second w.timer]⟩

/-- Nobody else begins. -/
def nobodyElse : Pool Updated → Event Updated → Prop
  | _, .starts _ => False
  | _, _ => True

/-- The caller is answered with the task. -/
inductive Loads (r : Caller) : Event Updated → Prop where
  | mk (id : String) (task : Task) (time : Nat) : Loads r (.store r (.get id) (.ok task) time)

/-- The caller's result is stored. -/
inductive Stores (r : Caller) : Event Updated → Prop where
  | mk (task : Task) (time : Nat) : Stores r (.store r (.update task) (.ok ()) time)

theorem Loads.eq {r s : Caller} {call : StoreCall} {reply : call.Reply} {time : Nat}
    (h : Loads s (.store r call reply time)) : s = r := by
  cases h with
  | mk => rfl

theorem Stores.eq {r s : Caller} {call : StoreCall} {reply : call.Reply} {time : Nat}
    (h : Stores s (.store r call reply time)) : s = r := by
  cases h with
  | mk => rfl

theorem not_stores_get {r s : Caller} {id : String} {reply : StoreCall.Reply (.get id)}
    {time : Nat} : ¬ Stores s (.store r (.get id) reply time) := by
  intro h
  cases h

variable {patch : Caller → Patch} {task : Task} {c : Conditions} {w w' : World}
  {p p' : Pool Updated} {r s : Caller} {trace : List (Event Updated)} {e : Event Updated}

/-! ### What an interleaving keeps -/

/-- What `r` has made of the task that it has loaded. This is the original task, if the other has
not stored its result before, and else the original task with the other patch. -/
def Made (patch : Caller → Patch) (task : Task) (trace : List (Event Updated)) (r : Caller)
    (made : Task) : Prop :=
  Happened (Loads r) trace ∧ ∃ loaded, (patch r).merge loaded = .ok made
    ∧ (loaded = task ∧ ¬ Precedes (Stores r.other) (Loads r) trace
      ∨ Precedes (Stores r.other) (Loads r) trace ∧ ∃ alone now,
        (patch r.other).merge task = .ok alone ∧ loaded = task.replaced alone now)

/-- The stored task: the original one, or the result of the caller that has stored last. -/
inductive Current (patch : Caller → Patch) (task : Task) (trace : List (Event Updated)) :
    Task → Prop where
  | original (hstores : ∀ r, ¬ Happened (Stores r) trace) : Current patch task trace task
  | result (r : Caller) {made : Task} (now : Instant) (hstored : Happened (Stores r) trace)
      (hmade : Made patch task trace r made)
      (hother : Happened (Stores r.other) trace → Precedes (Stores r.other) (Stores r) trace
        ∧ ¬ Precedes (Stores r) (Loads r.other) trace) :
      Current patch task trace (task.replaced made now)

/-- How far the update of `r` has come. -/
inductive Stage (patch : Caller → Patch) (task : Task) (trace : List (Event Updated))
    (r : Caller) : Operation (Updated r) → Prop where
  | starts (hload : ¬ Happened (Loads r) trace) :
      Stage patch task trace r (.store (.get (patch r).id) (afterLoad (patch r)))
  | stores {made : Task} (hmade : Made patch task trace r made)
      (hstore : ¬ Happened (Stores r) trace) :
      Stage patch task trace r (.store (.update made) (afterStore (patch r)))
  | reads (hstored : Happened (Stores r) trace) :
      Stage patch task trace r (.store (.get (patch r).id) .done)
  | ends {t : Task} (hstored : Happened (Stores r) trace) : Stage patch task trace r (.done (.ok t))
  | fails (e : TaskError) : Stage patch task trace r (.done (.error e))

/-- What holds all along an interleaving of the two updates. -/
structure SideBySide (patch : Caller → Patch) (task : Task) (trace : List (Event Updated))
    (p : Pool Updated) : Prop where
  callers : (p.jobs.map Job.request).Nodup
  stages : ∀ j ∈ p.jobs, Stage patch task trace j.request j.left
  loads : ∀ r, Happened (Stores r) trace → Happened (Loads r) trace
  ended : ∀ r t, Event.ends r (.ok t) ∈ trace → Happened (Stores r) trace
  current : ∃ t, p.world.table.get? task.id = some t ∧ Current patch task trace t

/-- A result stays what it is while time goes on. -/
theorem Made.snoc {made : Task} (h : Made patch task trace r made) :
    Made patch task (trace ++ [e]) r made := by
  obtain ⟨hload, loaded, hmerge, hfrom⟩ := h
  have hload' : Happened (Loads r) (trace ++ [e]) := hload.snoc
  refine ⟨hload', loaded, hmerge, ?_⟩
  rcases hfrom with ⟨horiginal, hfirst⟩ | ⟨hafter, halone⟩
  · exact Or.inl ⟨horiginal, not_precedes_snoc hfirst hload'⟩
  · exact Or.inr ⟨hafter.snoc, halone⟩

/-- The stored task stays what it is while nothing is stored. -/
theorem Current.snoc {t : Task} (h : Current patch task trace t)
    (hloads : ∀ r, Happened (Stores r) trace → Happened (Loads r) trace)
    (he : ∀ r, ¬ Stores r e) : Current patch task (trace ++ [e]) t := by
  have hold : ∀ {r}, Happened (Stores r) (trace ++ [e]) → Happened (Stores r) trace := by
    intro r hr
    rcases happened_snoc.1 hr with hr | hr
    · exact hr
    · exact absurd hr (he r)
  cases h with
  | original hstores => exact .original fun r hr => hstores r (hold hr)
  | result r now hstored hmade hother =>
    refine .result r now hstored.snoc hmade.snoc fun hboth => ?_
    obtain ⟨hlast, hnot⟩ := hother (hold hboth)
    exact ⟨hlast.snoc, not_precedes_snoc hnot (hloads r.other (hold hboth)).snoc⟩

/-- An update is where it was while it is not answered. -/
theorem Stage.snoc {op : Operation (Updated r)} (h : Stage patch task trace r op)
    (hloads : ¬ Loads r e) (hstores : ¬ Stores r e) : Stage patch task (trace ++ [e]) r op := by
  cases h with
  | starts hload => exact .starts (not_happened_snoc hload hloads)
  | stores hmade hstore => exact .stores hmade.snoc (not_happened_snoc hstore hstores)
  | reads hstored => exact .reads hstored.snoc
  | ends hstored => exact .ends hstored.snoc
  | fails e => exact .fails e

/-- An update makes calls of the store and nothing else. -/
theorem Stage.shape {op : Operation (Updated r)} (h : Stage patch task trace r op) :
    (∃ call next, op = .store call next) ∨ ∃ value, op = .done value := by
  cases h with
  | starts hload => exact Or.inl ⟨_, _, rfl⟩
  | stores hmade hstore => exact Or.inl ⟨_, _, rfl⟩
  | reads hstored => exact Or.inl ⟨_, _, rfl⟩
  | ends hstored => exact Or.inr ⟨_, rfl⟩
  | fails e => exact Or.inr ⟨_, rfl⟩

/-- An update that has gone well has stored its result. -/
theorem Stage.of_ok {t : Task} (h : Stage patch task trace r (.done (.ok t))) :
    Happened (Stores r) trace := by
  generalize hop : (Operation.done (.ok t) : Operation (Updated r)) = op at h
  cases h with
  | starts => cases hop
  | stores => cases hop
  | reads => cases hop
  | ends hstored => exact hstored
  | fails => cases hop

/-! ### One step -/

/-- What is made is made of the task with this id. -/
theorem Made.id_eq {made : Task} (h : Made patch task trace r made) : made.id = task.id := by
  obtain ⟨-, loaded, hmerge, hfrom⟩ := h
  have hloaded : loaded.id = task.id := by
    rcases hfrom with ⟨rfl, -⟩ | ⟨-, alone, now, -, rfl⟩
    · rfl
    · rfl
  exact (Patch.merge_frame hmerge).1.trans hloaded

/-- The task that is loaded now is the original one or has the other patch alone. -/
theorem Current.made {t made : Task} (h : Current patch task trace t)
    (hloads : ∀ r, Happened (Stores r) trace → Happened (Loads r) trace)
    (hload : ¬ Happened (Loads r) trace) (hmerge : (patch r).merge t = .ok made)
    (he : Loads r e) : Made patch task (trace ++ [e]) r made := by
  have hload' : Happened (Loads r) (trace ++ [e]) := happened_snoc.2 (Or.inr he)
  cases h with
  | original hstores =>
    -- nobody has stored anything, and from now on it is too late to come first
    have hfirst : ¬ Precedes (Stores r.other) (Loads r) trace := fun h => hstores _ h.happened
    exact ⟨hload', task, hmerge, Or.inl ⟨rfl, not_precedes_snoc hfirst hload'⟩⟩
  | @result s alone now hstored hmade hother =>
    rcases r.eq_or_eq_other s with rfl | rfl
    · -- who has stored something has loaded the task
      exact absurd (hloads _ hstored) hload
    · obtain ⟨-, loaded, halone, ⟨rfl, -⟩ | ⟨hafter, -⟩⟩ := hmade
      · exact ⟨hload', _, hmerge, Or.inr ⟨.now hstored hload, alone, now, halone, rfl⟩⟩
      · -- this one has not even loaded the task
        rw [Caller.other_other] at hafter
        exact absurd (hloads r hafter.happened) hload

/-- What an update leaves of the stored task does not depend on which of the two results it was. -/
theorem Current.replaced_eq {t : Task} (h : Current patch task trace t) (made : Task)
    (now : Instant) : t.replaced made now = task.replaced made now := by
  cases h with
  | original => rfl
  | result r now' => exact Task.replaced_replaced _ _ _ _ _

/-- The world with the task `new` in the place of `old`. -/
def updated (w : World) (old new : Task) : World :=
  { w with table := w.table.insert new.id (old.replaced new w.now) }

theorem get?_updated {old new : Task} {id : String} (hid : new.id = id) :
    (updated w old new).table.get? id = some (old.replaced new w.now) := by
  rw [updated, Keyed.get?_insert, if_pos hid.symm]

theorem performStore_get {id : String} {t : Task} (hget : w.table.get? id = some t) :
    w.performStore c (.get id) = (.ok t, w) := by
  simp [World.performStore, Table.perform, hget, World.takesId]

theorem performStore_update {old new : Task} (hget : w.table.get? new.id = some old) :
    w.performStore c (.update new) = (.ok (), updated w old new) := by
  simp [World.performStore, Table.perform, hget, World.takesId, updated]

/-- Reading a task changes nothing. -/
theorem answers_get {id : String} {t : Task} {reply : StoreCall.Reply (.get id)}
    (hget : w.table.get? id = some t) (h : StoreAnswers c (.get id) w reply w') :
    w' = w ∧ (reply = .ok t ∨ ∃ e, reply = .error e) := by
  cases h with
  | fails e => exact ⟨rfl, Or.inr ⟨e, rfl⟩⟩
  | performs =>
    rw [performStore_get hget]
    exact ⟨rfl, Or.inl rfl⟩

/-- An update puts the changed task in the place of the old one, or fails. -/
theorem answers_update {old new : Task} {reply : StoreCall.Reply (.update new)}
    (hget : w.table.get? new.id = some old) (h : StoreAnswers c (.update new) w reply w') :
    reply = .ok () ∧ w' = updated w old new ∨ (∃ e, reply = .error e) ∧ w' = w := by
  cases h with
  | fails e => exact Or.inr ⟨⟨e, rfl⟩, rfl⟩
  | performs =>
    rw [performStore_update hget]
    exact Or.inl ⟨rfl, rfl⟩

/-- What comes of an answer that `r` is given: what is left to do, and what is stored. -/
structure Goes (patch : Caller → Patch) (task : Task) (trace : List (Event Updated)) (r : Caller)
    (e : Event Updated) (left : Operation (Updated r)) (table : Table) : Prop where
  stage : Stage patch task (trace ++ [e]) r left
  loads : Stores r e → Happened (Loads r) trace
  current : ∃ t, table.get? task.id = some t ∧ Current patch task (trace ++ [e]) t

/-- An answer after which the same task is stored. -/
theorem SideBySide.goes (h : SideBySide patch task trace p) (he : ∀ s, ¬ Stores s e)
    {left : Operation (Updated r)} (hstage : Stage patch task (trace ++ [e]) r left) :
    Goes patch task trace r e left p.world.table := by
  obtain ⟨t, hget, ht⟩ := h.current
  exact ⟨hstage, fun hstores => absurd hstores (he r), t, hget, ht.snoc h.loads he⟩

/-- The task is loaded and the patch merged. -/
theorem goes_load (h : SideBySide patch task trace p) (hid : (patch r).id = task.id)
    (hload : ¬ Happened (Loads r) trace) {reply : StoreCall.Reply (.get (patch r).id)} {time : Nat}
    (hanswer : StoreAnswers c (.get (patch r).id) p.world reply w') :
    Goes patch task trace r (.store r (.get (patch r).id) reply time) (afterLoad (patch r) reply)
      w'.table := by
  obtain ⟨t, hget, ht⟩ := h.current
  rw [← hid] at hget
  obtain ⟨rfl, rfl | ⟨e, rfl⟩⟩ := answers_get hget hanswer
  · refine h.goes (fun s => not_stores_get) ?_
    cases hmerge : (patch r).merge t with
    | error e =>
      simp only [afterLoad, hmerge]
      exact .fails e
    | ok made =>
      have hmade := ht.made h.loads hload hmerge (.mk (patch r).id t time)
      have hstore : ¬ Happened (Stores r) trace := fun hstored => hload (h.loads r hstored)
      simp only [afterLoad, hmerge]
      exact .stores hmade (not_happened_snoc hstore not_stores_get)
  · exact h.goes (fun s => not_stores_get) (.fails e)

/-- The result is stored. If the other has stored one, it was before, and this one undoes it unless
it has been loaded. -/
theorem goes_store (h : SideBySide patch task trace p) {made : Task}
    (hmade : Made patch task trace r made) (hstore : ¬ Happened (Stores r) trace)
    {reply : StoreCall.Reply (.update made)} {time : Nat}
    (hanswer : StoreAnswers c (.update made) p.world reply w') :
    Goes patch task trace r (.store r (.update made) reply time) (afterStore (patch r) reply)
      w'.table := by
  obtain ⟨t, hget, ht⟩ := h.current
  rw [← hmade.id_eq] at hget
  rcases answers_update hget hanswer with ⟨rfl, rfl⟩ | ⟨⟨e, rfl⟩, rfl⟩
  · have hstored : Happened (Stores r) (trace ++ [.store r (.update made) (.ok ()) time]) :=
      happened_snoc.2 (Or.inr (.mk made time))
    refine ⟨.reads hstored, fun _ => hmade.1, t.replaced made p.world.now, ?_, ?_⟩
    · exact get?_updated hmade.id_eq
    · rw [ht.replaced_eq]
      refine .result r p.world.now hstored hmade.snoc fun hother => ?_
      -- the other has stored its result before, so it has loaded the task without this one
      have hbefore : Happened (Stores r.other) trace := by
        rcases happened_snoc.1 hother with hold | hnew
        · exact hold
        · exact absurd hnew.eq.symm r.ne_other
      have hload : Happened (Loads r.other) trace := h.loads r.other hbefore
      have hnot : ¬ Precedes (Stores r) (Loads r.other) trace := fun hp => hstore hp.happened
      exact ⟨.now hbefore hstore, not_precedes_snoc hnot hload.snoc⟩
  · refine h.goes (fun s hs => ?_) (.fails e)
    cases hs

/-- The stored task is read back. -/
theorem goes_read (h : SideBySide patch task trace p) (hid : (patch r).id = task.id)
    (hstored : Happened (Stores r) trace) {reply : StoreCall.Reply (.get (patch r).id)} {time : Nat}
    (hanswer : StoreAnswers c (.get (patch r).id) p.world reply w') :
    Goes patch task trace r (.store r (.get (patch r).id) reply time) (.done reply) w'.table := by
  obtain ⟨t, hget, ht⟩ := h.current
  rw [← hid] at hget
  obtain ⟨rfl, rfl | ⟨e, rfl⟩⟩ := answers_get hget hanswer
  · exact h.goes (fun s => not_stores_get) (.ends hstored.snoc)
  · exact h.goes (fun s => not_stores_get) (.fails e)

/-- What comes of any answer of the store. -/
theorem goes_stage (h : SideBySide patch task trace p) (hid : (patch r).id = task.id)
    {call : StoreCall} {next : call.Reply → Operation (Updated r)} {reply : call.Reply}
    {time : Nat} (hstage : Stage patch task trace r (.store call next))
    (hanswer : StoreAnswers c call p.world reply w') :
    Goes patch task trace r (.store r call reply time) (next reply) w'.table := by
  generalize hop : Operation.store call next = op at hstage
  cases hstage with
  | starts hload =>
    cases hop
    exact goes_load h hid hload hanswer
  | stores hmade hstore =>
    cases hop
    exact goes_store h hmade hstore hanswer
  | reads hstored =>
    cases hop
    exact goes_read h hid hstored hanswer
  | ends hstored => cases hop
  | fails e => cases hop

/-- Only answers of the store tell callers anything. -/
theorem not_answer (he : ∀ s call reply time, e ≠ .store s call reply time) (r : Caller) :
    ¬ Loads r e ∧ ¬ Stores r e := by
  constructor
  · rintro ⟨id, t, time⟩
    exact he _ _ _ _ rfl
  · rintro ⟨t, time⟩
    exact he _ _ _ _ rfl

/-- A step that answers nobody. -/
theorem SideBySide.quiet (h : SideBySide patch task trace p)
    (he : ∀ s call reply time, e ≠ .store s call reply time) (htable : p'.world.table = p.world.table)
    (hcallers : (p'.jobs.map Job.request).Nodup) (hjobs : ∀ j ∈ p'.jobs, j ∈ p.jobs)
    (hended : ∀ s t, e = .ends s (.ok t) → Happened (Stores s) trace) :
    SideBySide patch task (trace ++ [e]) p' where
  callers := hcallers
  stages j hj := (h.stages j (hjobs j hj)).snoc (not_answer he _).1 (not_answer he _).2
  loads s hs := by
    rcases happened_snoc.1 hs with hold | hnew
    · exact (h.loads s hold).snoc
    · exact absurd hnew (not_answer he s).2
  ended s t hmem := by
    rcases List.mem_append.1 hmem with hold | hnew
    · exact (h.ended s t hold).snoc
    · exact (hended s t (List.mem_singleton.1 hnew).symm).snoc
  current := by
    obtain ⟨t, hget, ht⟩ := h.current
    rw [htable]
    exact ⟨t, hget, ht.snoc h.loads fun s => (not_answer he s).2⟩

/-- Every step keeps what holds of the two updates. -/
theorem sideBySide_step (hid : ∀ r, (patch r).id = task.id) (h : SideBySide patch task trace p)
    (hallowed : nobodyElse p e) (hstep : Step (updates patch) c p e p') :
    SideBySide patch task (trace ++ [e]) p' := by
  cases hstep with
  | starts w jobs r => exact absurd hallowed id
  | waits wall hforward hcut =>
    exact h.quiet (by simp) rfl h.callers (fun j hj => hj) (by simp)
  | @store w w' l js r call next since reply hanswer =>
    have hgoes : Goes patch task trace r (.store r call reply w.timer) (next reply) w'.table :=
      goes_stage h (hid r) (h.stages ⟨r, .store call next, since⟩ (by simp)) hanswer
    have hcallers : ((l ++ ⟨r, next reply, w.timer⟩ :: js).map Job.request).Nodup := by
      simpa using h.callers
    have hothers : ∀ i ∈ l ++ js, i.request ≠ r := request_ne h.callers
    refine ⟨hcallers, forall_mem_replace h.stages (fun i hi hstage => ?_) hgoes.stage, ?_, ?_,
      hgoes.current⟩
    · -- the answer is not for this caller
      exact hstage.snoc (fun hs => hothers i hi hs.eq) fun hs => hothers i hi hs.eq
    · intro s hs
      rcases happened_snoc.1 hs with hold | hnew
      · exact (h.loads s hold).snoc
      · obtain rfl := hnew.eq
        exact (hgoes.loads hnew).snoc
    · intro s t hmem
      have hold : Event.ends s (.ok t) ∈ trace := by simpa using hmem
      exact (h.ended s t hold).snoc
  | @cache w w' l js r limit call next since reply hanswer =>
    have hstage := h.stages ⟨r, .cache limit call next, since⟩ (by simp)
    rcases hstage.shape with ⟨_, _, hop⟩ | ⟨_, hop⟩
    · cases hop
    · cases hop
  | @gauge w l js r change next since =>
    have hstage := h.stages ⟨r, .gauge change next, since⟩ (by simp)
    rcases hstage.shape with ⟨_, _, hop⟩ | ⟨_, hop⟩
    · cases hop
    · cases hop
  | @ends w l js r value since =>
    have hstage := h.stages ⟨r, .done value, since⟩ (by simp)
    refine h.quiet (by simp) rfl (callers_remove h.callers) (forall_mem_remove fun i hi => hi) ?_
    intro s t ht
    cases ht
    exact hstage.of_ok
  | @drops w l js j =>
    exact h.quiet (by simp) rfl (callers_remove h.callers) (forall_mem_remove fun i hi => hi)
      (by simp)

/-- In every interleaving the stored task is the original one or what the caller that has stored
last has made of the one that it had loaded. -/
theorem sideBySide_run (hid : ∀ r, (patch r).id = task.id)
    (hstored : w.table.get? task.id = some task)
    (hrun : Runs (updates patch) c nobodyElse (sideBySide patch w) trace p) :
    SideBySide patch task trace p := by
  have hinit : SideBySide patch task [] (sideBySide patch w) := by
    refine ⟨by simp [sideBySide, starting], fun j hj => ?_,
      fun r h => absurd h not_happened_nil, fun r t h => ?_, task, hstored,
      .original fun r => not_happened_nil⟩
    · have hstarts : ∀ r, Stage patch task [] r (updates patch r) := by
        intro r
        unfold updates
        rw [update_eq]
        exact .starts not_happened_nil
      rcases List.mem_cons.1 hj with rfl | hj
      · exact hstarts .first
      · rw [List.mem_singleton.1 hj]
        exact hstarts .second
    · cases h
  exact hrun.invariant hinit fun _ _ _ _ _ h hallowed hstep => sideBySide_step hid h hallowed hstep


end TaskBoard.Service
