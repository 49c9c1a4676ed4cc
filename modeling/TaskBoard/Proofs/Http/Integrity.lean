import TaskBoard.Proofs.Http.Gauge
import TaskBoard.Proofs.Run.Careful
import TaskBoard.Proofs.Service.SideBySide

/-!
# The stored tasks behind the server

Whatever requests come, in whatever order the calls that they make are answered, whichever calls
fail and wherever a request is given up, the server leaves nothing in an empty store but sound tasks
under their own ids, and neither the id nor the time of creation of a task ever changes.

* `Service.careful_create`, `Service.careful_update`, `Service.careful_delete`: the operations of
  the service;
* `careful_operations`: whatever a request makes the server do is careful;
* `sound_and_kept_of_requests`: the stored tasks in every state of any number of requests.
-/

namespace TaskBoard

open Run

variable {caching : Option Caching}

/-! ## The service -/

theorem careful_flush : Careful (Caching.flush caching) := by
  cases caching with
  | none => exact .done ()
  | some g => exact .cache fun _ => .done ()

/-- A call of the cached store is as careful as the call is sound. -/
theorem careful_perform (call : StoreCall) (hcall : call.Sound) :
    Careful (Caching.perform caching call) := by
  cases call with
  | create draft =>
    refine .store hcall fun reply _ => ?_
    cases reply with
    | error e => exact .done _
    | ok task => exact careful_flush.map
  | update task =>
    refine .store hcall fun reply _ => ?_
    cases reply with
    | error e => exact .done _
    | ok done => exact careful_flush.map
  | delete id =>
    refine .store hcall fun reply _ => ?_
    rcases reply with e | _ | _
    · exact .done _
    · exact .done _
    · exact careful_flush.map
  | get id => exact (reads_perform rfl).careful
  | list q => exact (reads_perform rfl).careful
  | count => exact (reads_perform rfl).careful
  | countFiltered f => exact (reads_perform rfl).careful

namespace Service

/-- A create that is not refused has a draft with a trimmed title. -/
theorem careful_create (r : CreateRequest) : Careful (create caching r.toDraft) := by
  unfold create
  cases htitle : normalizeTitle r.toDraft.title with
  | error e => exact .done _
  | ok title =>
    have hcall : (StoreCall.create { r.toDraft with title }).Sound := ⟨rfl, r.sound_toDraft htitle⟩
    refine (careful_perform _ hcall).bind fun reply => ?_
    cases reply with
    | error e => exact .done _
    | ok task => exact .gauge (.done _)

/-- An update stores what it has loaded with its patch, and what it has loaded is sound. -/
theorem careful_update (r : UpdateRequest) (id : String) :
    Careful (update caching (r.toPatch id)) := by
  unfold update
  refine .store trivial fun loaded hloaded => ?_
  cases loaded with
  | error e => exact .done _
  | ok task =>
    simp only [Operation.done_bind]
    cases hmerge : (r.toPatch id).merge task with
    | error e => exact .done _
    | ok merged =>
      have hcall : (StoreCall.update merged).Sound := UpdateRequest.sound_merge hloaded hmerge
      refine (careful_perform _ hcall).bind fun stored => ?_
      cases stored with
      | error e => exact .done _
      | ok done => exact careful_perform _ trivial

theorem careful_delete (id : String) : Careful (delete caching id) := by
  unfold delete
  refine (careful_perform (.delete id) trivial).bind fun reply => ?_
  rcases reply with e | _ | _
  · exact .done _
  · exact .done _
  · exact .gauge (.done _)

end Service

namespace Http

/-! ## Requests -/

/-- What one of the operations of a request ends with. -/
inductive Outcome where
  | response (r : Response)
  | page (result : Except TaskError (List Task))
  | total (result : Except TaskError Int64)

/-- The operations of an activity, which may be under way side by side. -/
def operationsOf : Activity Response → List (Operation Outcome)
  | .single op => [op.map .response]
  | .pair page filter _ =>
    [page.map .page, (Operation.ask (.countFiltered filter)).map .total]

/-- The operations that a request makes the server do. One for options reaches no route. -/
def operations (caching : Option Caching) (tally : Metrics.Tally) (gauge : Int64) (r : Incoming) :
    List (Operation Outcome) :=
  if r.method = "OPTIONS" then []
  else operationsOf (activity caching tally gauge (Route.ofPath r.target.path) r)

/-- All operations of the activity are careful. -/
def CarefulActivity (a : Activity Response) : Prop := ∀ op ∈ operationsOf a, Careful op

theorem carefulActivity_single {op : Operation Response} (h : Careful op) :
    CarefulActivity (.single op) := by
  intro op' hop'
  rw [List.mem_singleton.1 hop']
  exact h.map

theorem carefulActivity_only (r : Response) : CarefulActivity (only r) :=
  carefulActivity_single (.done r)

theorem carefulActivity_withId {segment : List Char} {act : String → Activity Response}
    (hact : ∀ id, CarefulActivity (act id)) : CarefulActivity (withId segment act) := by
  unfold withId
  split
  · exact hact _
  · exact carefulActivity_only _

theorem carefulActivity_withValue {α : Type} {value : Except Fault α}
    {act : α → Activity Response} (hact : ∀ a, CarefulActivity (act a)) :
    CarefulActivity (withValue value act) := by
  cases value with
  | ok a => exact hact a
  | error f => exact carefulActivity_only _

theorem carefulActivity_listTasks (query : Option (List Char)) :
    CarefulActivity (listTasks caching query) := by
  refine carefulActivity_withValue fun q => ?_
  intro op hop
  have hpage : Careful (Caching.perform caching (.list q.normalized)) :=
    careful_perform _ trivial
  have htotal : Careful (Operation.ask (.countFiltered q.normalized.filter)) :=
    (Reads.store rfl fun reply => .done reply).careful
  rcases List.mem_cons.1 hop with rfl | hop
  · exact hpage.map
  · rw [List.mem_singleton.1 hop]
    exact htotal.map

/-- Whatever a request makes the server do is careful. -/
theorem careful_operations {tally : Metrics.Tally} {gauge : Int64} {r : Incoming}
    {op : Operation Outcome} (hop : op ∈ operations caching tally gauge r) : Careful op := by
  unfold operations at hop
  split at hop
  · cases hop
  · revert op
    show CarefulActivity (activity caching tally gauge (Route.ofPath r.target.path) r)
    unfold activity
    split
    · -- no such path
      exact carefulActivity_only _
    · -- health
      split <;> exact carefulActivity_only _
    · -- metrics
      split <;> exact carefulActivity_only _
    · -- all tasks: a page, or a new task
      split
      · exact carefulActivity_listTasks _
      · split
        · refine carefulActivity_withValue fun request => ?_
          exact carefulActivity_single (Service.careful_create request).map
        · exact carefulActivity_only _
    · -- one task: it is read, updated or deleted
      split
      · refine carefulActivity_withId fun id => ?_
        exact carefulActivity_single (careful_perform (.get id) trivial).map
      · split
        · refine carefulActivity_withId fun id => carefulActivity_withValue fun request => ?_
          exact carefulActivity_single (Service.careful_update request id).map
        · split
          · refine carefulActivity_withId fun id => ?_
            exact carefulActivity_single (Service.careful_delete id).map
          · exact carefulActivity_only _

/-! ## Any number of requests -/

/-- A pool of what requests make the server do. -/
abbrev Requests := Pool fun _ : Operation Outcome => Outcome

/-- What is begun are operations of requests, whatever has been counted by then. -/
def byRequests (caching : Option Caching) (p : Requests) :
    Event (fun _ : Operation Outcome => Outcome) → Prop
  | .starts op => ∃ tally r, op ∈ operations caching tally p.world.gauge r
  | _ => True

/-- One run of a pool of requests. -/
abbrev RunsRequests (caching : Option Caching) (c : Conditions) :
    Requests → List (Event fun _ : Operation Outcome => Outcome) → Requests → Prop :=
  Runs (fun op => op) c (byRequests caching)

theorem beginsCareful_requests :
    BeginsCareful (fun op : Operation Outcome => op) (byRequests caching) := by
  rintro p op ⟨tally, r, hop⟩
  exact careful_operations hop

/-- In every state that any number of requests to an empty store can come to, all tasks are sound
and under their own ids. If no id is generated twice, a task that is still there in a later state
has the id and the time of creation that it had. -/
theorem sound_and_kept_of_requests {c : Conditions} {w : World} {p q : Requests}
    {trace trace' : List (Event fun _ : Operation Outcome => Outcome)}
    (hempty : w.table = .empty) (hrun : RunsRequests caching c ⟨w, []⟩ trace p)
    (hlater : RunsRequests caching c p trace' q) :
    (∀ key task, p.world.table.get? key = some task → task.id = key ∧ task.Sound)
    ∧ (Set.InjOn c.id (Set.Iio q.world.ids) → ∀ key task task',
      p.world.table.get? key = some task → q.world.table.get? key = some task' →
      task'.id = task.id ∧ task'.createdAt = task.createdAt) := by
  have hinit : Intact c (⟨w, []⟩ : Requests) := by
    refine ⟨?_, ?_, by simp⟩
    · show w.table.Sound
      rw [hempty]
      exact Table.each_empty _
    · show ∀ key task, w.table.get? key = some task → _
      rw [hempty]
      intro key task hget
      cases hget
  have hp : Intact c p := intact_run beginsCareful_requests hinit hrun
  have hq : Intact c q := intact_run beginsCareful_requests hp hlater
  refine ⟨hp.sound, fun hinj key task task' htask htask' => ⟨?_, ?_⟩⟩
  · exact (hq.sound key task' htask').1.trans (hp.sound key task htask).1.symm
  · exact (kept_run beginsCareful_requests hp hlater).createdAt_eq hinj key task task' htask htask'

/-- A request that gives the first task a title. -/
def renameRequest : Incoming where
  method := "PUT"
  target := { path := "/api/v1/tasks/".toList ++ (generatedId 0).toList, query := none }
  headers := [("content-type", "application/json")]
  body := Text.utf8Encode "\x7b\"title\":\" y \"\x7d".toList

/-- A create request makes one store call. -/
theorem exists_create_mem : ∃ next, .store (.create { title := "x" }) next
    ∈ operations none {} 0 createRequest := by
  have hmethod : createRequest.method = "POST" := rfl
  have hroute : Route.ofPath createRequest.target.path = some .tasks := by decide +kernel
  have hbody : readBody CreateRequest.reader createRequest.headers createRequest.body
      = .ok { title := "x" } := by decide +kernel
  have htitle : normalizeTitle "x" = .ok "x" := by decide +kernel
  have hcreate : ∃ next, Service.create none { title := "x" } =
      .store (.create { title := "x" }) next := by
    simp only [Service.create, htitle]
    exact ⟨_, rfl⟩
  obtain ⟨next, hnext⟩ := hcreate
  have hops : operations none {} 0 createRequest =
      [((Service.create none { title := "x" }).map (answer fun t => withJson 201 t.toJson)).map
        .response] := by
    simp [operations, activity, hroute, hmethod, isRead, createTask, withValue, hbody, operationsOf,
      CreateRequest.toDraft]
  rw [hops, hnext]
  exact ⟨_, List.mem_singleton_self _⟩

/-- A rename loads the task and stores it with the title. -/
theorem exists_update_mem : ∃ next, .store (.get (generatedId 0)) next
    ∈ operations none {} 0 renameRequest
    ∧ ∀ t : Task, ∃ next', next (.ok t) = .store (.update { t with title := "y" }) next' := by
  have hmethod : renameRequest.method = "PUT" := rfl
  have hroute : Route.ofPath renameRequest.target.path = some (.task (generatedId 0).toList) := by
    decide +kernel
  have hid : Route.decodeId (generatedId 0).toList = some (generatedId 0) := by decide +kernel
  have hbody : readBody UpdateRequest.reader renameRequest.headers renameRequest.body
      = .ok { title := some " y " } := by decide +kernel
  have htitle : normalizeTitle " y " = .ok "y" := by decide +kernel
  have hops : operations none {} 0 renameRequest =
      [((Service.update none (UpdateRequest.toPatch { title := some " y " } (generatedId 0))).map
        (answer fun t => withJson 200 t.toJson)).map .response] := by
    simp [operations, activity, hroute, hmethod, isRead, updateTask, withId, hid, withValue, hbody,
      operationsOf]
  rw [hops, Service.update_eq]
  refine ⟨_, List.mem_singleton_self _, fun t => ?_⟩
  have hmerge : (UpdateRequest.toPatch { title := some " y " } (generatedId 0)).merge t
      = .ok { t with title := "y" } :=
    Patch.merge_eq_ok_iff.2 ⟨"y", htitle, rfl⟩
  simp only [Service.afterLoad, hmerge]
  exact ⟨_, rfl⟩

section Steps

variable {c : Conditions} {w : World} {jobs : List (Job fun _ : Operation Outcome => Outcome)}

/-- A request begins. -/
theorem runs_begin {op : Operation Outcome} (hop : byRequests caching ⟨w, jobs⟩ (.starts op)) :
    RunsRequests caching c ⟨w, jobs⟩ [.starts op] ⟨w, ⟨op, op, w.timer⟩ :: jobs⟩ :=
  .single hop (.starts w jobs op)

/-- A store call of the request that has begun last is performed. -/
theorem runs_perform {r : Operation Outcome} {call : StoreCall}
    {next : call.Reply → Operation Outcome} {since : Nat} {reply : call.Reply} {w' : World}
    (hperform : w.performStore c call = (reply, w')) :
    RunsRequests caching c ⟨w, ⟨r, .store call next, since⟩ :: jobs⟩
      [.store r call reply w.timer] ⟨w', ⟨r, next reply, w.timer⟩ :: jobs⟩ := by
  have hanswer : StoreAnswers c call w _ _ := .performs
  rw [hperform] at hanswer
  have hstep : Step (fun op : Operation Outcome => op) c
      ⟨w, [] ++ ⟨r, .store call next, since⟩ :: jobs⟩ _ _ := .store hanswer
  exact .single trivial hstep

end Steps

/-- A task is created, and given a title after the clock has been set back. -/
theorem sound_and_kept_of_rename :
    ∃ trace trace' p q task task',
      RunsRequests none (Probe.conditions {}) ⟨{}, []⟩ trace p
      ∧ RunsRequests none (Probe.conditions {}) p trace' q
      ∧ p.world.table.get? (generatedId 0) = some task
      ∧ q.world.table.get? (generatedId 0) = some task'
      ∧ task.title = "x" ∧ task'.title = "y"
      ∧ task'.Sound ∧ task'.id = task.id ∧ task'.createdAt = task.createdAt := by
  obtain ⟨next, hcreate⟩ := exists_create_mem
  obtain ⟨next', hload, hstore⟩ := exists_update_mem
  let c := Probe.conditions {}
  let task : Task := Draft.toTask { title := "x" } (generatedId 0) ({} : World).now
  let w : World := { table := Keyed.empty.insert task.id task, ids := 1 }
  let back : World := { w with wall := -1000000 }
  obtain ⟨next'', hnext⟩ := hstore task
  have hget : w.table.get? (generatedId 0) = some task := by simp [w, task, Draft.toTask]
  -- the create begins and is answered
  let job : Job fun _ : Operation Outcome => Outcome := 
    ⟨.store (.create { title := "x" }) next, next (.ok task), 0⟩
  have hcreated : RunsRequests none c ⟨{}, []⟩ _ ⟨w, [job]⟩ :=
    (runs_begin ⟨{}, createRequest, hcreate⟩).trans (runs_perform rfl)
  -- the clock is set back
  have hback : RunsRequests none c ⟨w, [job]⟩ [.waits 0 (-1000000)] ⟨back, [job]⟩ :=
    .single trivial (.waits _ (Nat.le_refl _) fun _ _ _ _ => Nat.zero_le _)
  -- the rename begins, loads the task and stores it
  have hloaded : RunsRequests none c ⟨back, [job]⟩ _ ⟨back, ⟨_, next' (.ok task), 0⟩ :: [job]⟩ :=
    (runs_begin ⟨{}, renameRequest, hload⟩).trans (runs_perform (Service.performStore_get hget))
  rw [hnext] at hloaded
  let after := Service.updated back task { task with title := "y" }
  have hstored : RunsRequests none c ⟨w, [job]⟩ _ ⟨after, _⟩ :=
    hback.trans (hloaded.trans (runs_perform (Service.performStore_update hget)))
  have hget' : after.table.get? (generatedId 0) = some _ := Service.get?_updated rfl
  have hinj : Set.InjOn c.id (Set.Iio 1) := by
    intro m hm n hn _
    rw [Nat.lt_one_iff.1 hm, Nat.lt_one_iff.1 hn]
  obtain ⟨-, hkept⟩ := sound_and_kept_of_requests rfl hcreated hstored
  obtain ⟨hsound, -⟩ := sound_and_kept_of_requests rfl (hcreated.trans hstored) .nil
  exact ⟨_, _, _, _, task, _, hcreated, hstored, hget, hget', rfl, rfl, (hsound _ _ hget').2,
    hkept hinj _ _ _ hget hget'⟩

end Http

end TaskBoard
