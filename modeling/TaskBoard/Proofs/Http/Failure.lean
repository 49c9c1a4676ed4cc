import TaskBoard.Proofs.Http.Integrity
import TaskBoard.Proofs.Service.Failure

/-!
# Requests that fail

Whatever is wrong with a request, and whichever of its store calls fails, the answer tells what is
left: a request that is refused has touched nothing, and after one that has failed inside the tasks
are as they were, unless an update could not be read back.

* `spares_single`, `spares_list`: operations of the service, answered;
* `does_activity`, `spares_activity`: whatever a request makes the server do;
* `failed_requests_change_nothing`: the answers 400, 404, 405 and 500 in every state that requests
  can lead to, and updates of tasks that are not there.
-/

namespace TaskBoard

open Run

namespace Http

variable {caching : Option Caching} {c : Conditions} {w w' : World} {patch : Option Patch}

/-- The patch that a request to update a task carries. -/
def Incoming.patch? (r : Incoming) : Option Patch :=
  match Route.ofPath r.target.path with
  | some (.task segment) =>
    if r.method = "PUT" then
      (Route.decodeId segment).bind fun id =>
        (readBody UpdateRequest.reader r.headers r.body).toOption.map (·.toPatch id)
    else none
  | _ => none

/-! ## Answers and what they leave -/

/-- What is left behind is what the answer tells: all is as it was if the request is refused, and if
it has failed inside, all but the cached lists and an update that could not be read back. -/
structure Spares (c : Conditions) (w : World) (patch : Option Patch) (r : Response) (w' : World) :
    Prop where
  refused : r.status = 400 ∨ r.status = 404 ∨ r.status = 405 → w.SameContents w'
  broken : r.status = 500 → LeftBroken c w patch w'

theorem Spares.of_fine {r : Response} (h : r.status < 400) : Spares c w patch r w' := by
  constructor
  · intro hrefused
    omega
  · intro hbroken
    omega

/-- Answers that touch nothing are not those to failures inside. -/
theorem Spares.of_same {r : Response} (h : r.status ≠ 500) : Spares c w patch r w where
  refused := fun _ => .rfl
  broken := fun hbroken => absurd hbroken h

/-- The answer to an error. -/
theorem spares_of_leaves {e : TaskError} (h : Leaves c w patch e w') :
    Spares c w patch (Fault.ofTaskError e).toResponse w' := by
  cases e with
  | invalidInput reason =>
    have hstatus : (Fault.ofTaskError (.invalidInput reason)).toResponse.status = 400 := rfl
    exact ⟨fun _ => h, fun hbroken => by omega⟩
  | notFound id =>
    have hstatus : (Fault.ofTaskError (.notFound id)).toResponse.status = 404 := rfl
    exact ⟨fun _ => h, fun hbroken => by omega⟩
  | persistence detail =>
    have hstatus : (Fault.ofTaskError (.persistence detail)).toResponse.status = 500 := rfl
    exact ⟨fun hrefused => by omega, fun _ => h⟩

/-- Whatever the activity is answered with, it leaves what the answer tells. -/
def SparesActivity (c : Conditions) (w : World) (patch : Option Patch) (a : Activity Response) :
    Prop :=
  ∀ deadline response w', runActivity c deadline a w = (some response, w') →
    Spares c w patch response w'

theorem spares_only {r : Response} (h : r.status ≠ 500) : SparesActivity c w patch (only r) := by
  intro deadline response w' hrun
  unfold runActivity at hrun
  split at hrun
  · cases (Prod.mk.inj hrun).1
  · obtain ⟨hresponse, rfl⟩ := Prod.mk.inj hrun
    rw [← Option.some.inj hresponse]
    exact .of_same h

/-- An operation of the service, answered. -/
theorem spares_single {α : Type} {op : Operation (Except TaskError α)} {good : α → Response}
    (hgood : ∀ a, (good a).status < 400)
    (hfails : ∀ e w', run c none op w = (some (.error e), w') → Leaves c w patch e w') :
    SparesActivity c w patch (.single (op.map (answer good))) := by
  intro deadline response w' hrun
  unfold runActivity at hrun
  split at hrun
  · cases (Prod.mk.inj hrun).1
  · simp only [run_map] at hrun
    rcases hop : run c deadline op w with ⟨_ | result, w₁⟩
    · rw [hop] at hrun
      cases (Prod.mk.inj hrun).1
    · rw [hop] at hrun
      obtain ⟨hresponse, rfl⟩ := Prod.mk.inj hrun
      rw [← Option.some.inj hresponse]
      cases result with
      | ok a => exact .of_fine (hgood a)
      | error e => exact spares_of_leaves (hfails e w₁ (run_of_value hop))

/-! ## The routes -/

/-- What a request makes the server do: nothing but answer, or one of the operations of the service.
Only a request to update has a patch. -/
inductive Does (caching : Option Caching) : Option Patch → Activity Response → Prop where
  | answers {patch : Option Patch} {r : Response} (hstatus : r.status ∈ [200, 400, 404, 405]) :
      Does caching patch (only r)
  | lists (q : Query) : Does caching none ((Service.list caching q).map (answer pageResponse))
  | creates (r : CreateRequest) : Does caching none
      (.single ((Service.create caching r.toDraft).map (answer fun t => withJson 201 t.toJson)))
  | gets (id : String) : Does caching none
      (.single ((Service.get caching id).map (answer fun t => withJson 200 t.toJson)))
  | updates (id : String) (r : UpdateRequest) : Does caching (some (r.toPatch id))
      (.single
        ((Service.update caching (r.toPatch id)).map (answer fun t => withJson 200 t.toJson)))
  | deletes (id : String) : Does caching none
      (.single ((Service.delete caching id).map (answer fun _ => bare 204)))

theorem does_withValue {α : Type} {value : Except Fault α} {act : α → Activity Response}
    (hvalue : OnlyBad value) (hact : ∀ a, value = .ok a → Does caching patch (act a)) :
    Does caching patch (withValue value act) := by
  cases value with
  | ok a => exact hact a rfl
  | error f =>
    have hstatus : f.toResponse.status = 400 := hvalue f rfl
    exact .answers (by simp [hstatus])

theorem does_withId {segment : List Char} {act : String → Activity Response}
    (hact : ∀ id, Route.decodeId segment = some id → Does caching patch (act id)) :
    Does caching patch (withId segment act) := by
  unfold withId
  split
  · rename_i id hid
    exact hact id hid
  · exact .answers (by decide)

/-- Every request makes the server do one of these. -/
theorem does_activity (caching : Option Caching) (tally : Metrics.Tally) (gauge : Int64)
    (r : Incoming) :
    Does caching r.patch? (activity caching tally gauge (Route.ofPath r.target.path) r) := by
  have h405 : ∀ route, (methodResponse route).status ∈ [200, 400, 404, 405] :=
    fun _ => by simp [methodResponse]
  rcases hroute : Route.ofPath r.target.path with _ | _ | segment | _ | _
  · -- no such path
    exact .answers (by decide)
  · -- all tasks: a page, or a new task
    have hpatch : r.patch? = none := by simp only [Incoming.patch?, hroute]
    rw [hpatch]
    unfold activity
    simp only
    split
    · exact does_withValue ((onlyBad_ofQuery _).bind onlyBad_toQuery) fun q _ => .lists q
    · split
      · exact does_withValue (onlyBad_readBody _ _ _) fun request _ => .creates request
      · exact .answers (h405 _)
  · -- one task: it is read, updated or deleted
    unfold activity
    simp only
    split
    · rename_i hread
      have hpatch : r.patch? = none := by
        have hput : r.method ≠ "PUT" := by
          intro hput
          rw [hput] at hread
          exact absurd hread (by decide)
        simp only [Incoming.patch?, hroute, if_neg hput]
      rw [hpatch]
      exact does_withId fun id _ => .gets id
    · split
      · rename_i hput
        refine does_withId fun id hid => ?_
        refine does_withValue (onlyBad_readBody _ _ _) fun request hbody => ?_
        have hpatch : r.patch? = some (request.toPatch id) := by
          simp [Incoming.patch?, hroute, hput, hid, hbody, Except.toOption]
        rw [hpatch]
        exact .updates id request
      · rename_i hput
        have hpatch : r.patch? = none := by simp only [Incoming.patch?, hroute, if_neg hput]
        rw [hpatch]
        split
        · exact does_withId fun id _ => .deletes id
        · exact .answers (h405 _)
  · -- health
    unfold activity
    simp only
    split
    · exact .answers (by simp [withJson])
    · exact .answers (h405 _)
  · -- metrics
    unfold activity
    simp only
    split
    · exact .answers (by simp [metricsResponse])
    · exact .answers (h405 _)

/-- A list that fails does so with the store, and leaves the tasks and the gauge. -/
theorem spares_list (q : Query) :
    SparesActivity c w none ((Service.list caching q).map (answer pageResponse)) := by
  intro deadline response w' hrun
  have hsame : w.SameTasks
      (runActivity c deadline ((Service.list caching q).map (answer pageResponse)) w).2 :=
    sameTasks_pair (reads_perform rfl)
  obtain ⟨sides, hjoint, hresponse⟩ :=
    joint_of_pair (Service.finds_list w.table q.normalized) (congrArg Prod.fst hrun)
  rw [hrun] at hsame
  rw [hresponse]
  rcases sides with e | ⟨items, total⟩
  · -- whichever side has failed, it was the store
    obtain ⟨detail, rfl⟩ : ∃ detail, e = .persistence detail := by
      rcases hjoint with hpage | htotal
      · exact hpage e rfl
      · exact htotal.onlyPersistence (fun _ _ => ⟨_, rfl⟩) e rfl
    have hleaves : Leaves c w none (.persistence detail) w' :=
      .same (fun p old merged hp => by cases hp) hsame
    exact spares_of_leaves hleaves
  · exact .of_fine (by decide : (200 : Nat) < 400)

/-- Whatever a request makes the server do, it leaves what the answer tells. -/
theorem spares_activity (tally : Metrics.Tally) (gauge : Int64) (r : Incoming)
    (hown : w.table.OwnIds) :
    SparesActivity c w r.patch?
      (activity caching tally gauge (Route.ofPath r.target.path) r) := by
  have hdoes := does_activity caching tally gauge r
  generalize r.patch? = patch at hdoes ⊢
  generalize activity caching tally gauge (Route.ofPath r.target.path) r = doing at hdoes ⊢
  -- but for an update, what leaves everything as it was leaves what may be left
  have hnone : ∀ {e w'}, w.SameContents w' → Leaves c w none e w' :=
    fun h => h.leaves (fun p old merged hp => by cases hp) _
  cases hdoes with
  | answers hstatus =>
    refine spares_only fun h500 => ?_
    rw [h500] at hstatus
    exact absurd hstatus (by decide)
  | lists q => exact spares_list q
  | creates request =>
    exact spares_single (fun _ => (by decide : (201 : Nat) < 400)) fun e w' hrun =>
      hnone (Service.same_of_failed_create hrun)
  | gets id =>
    exact spares_single (fun _ => (by decide : (200 : Nat) < 400)) fun e w' hrun =>
      hnone (Service.same_of_get hrun)
  | updates id request =>
    exact spares_single (fun _ => (by decide : (200 : Nat) < 400)) fun e w' hrun =>
      Service.leaves_of_failed_update (fun task => hown id task) hrun
  | deletes id =>
    exact spares_single (fun _ => (by decide : (204 : Nat) < 400)) fun e w' hrun =>
      hnone (Service.same_of_failed_delete hrun)

/-! ## Requests -/

/-- Only the status of an answer tells what is left. -/
theorem Spares.of_status {r r' : Response} (h : Spares c w patch r w')
    (hstatus : r'.status = r.status) : Spares c w patch r' w' := by
  constructor
  · rw [hstatus]
    exact h.refused
  · rw [hstatus]
    exact h.broken

theorem spares_serve (server : Server) (c : Conditions) (r : Incoming) {s : State}
    (hown : s.world.table.OwnIds) :
    Spares c s.world r.patch? (server.serve c r s).1 (server.serve c r s).2.world := by
  by_cases hoptions : r.method = "OPTIONS"
  · -- reaches no route
    simp only [Server.serve, if_pos hoptions]
    exact .of_fine (by decide : (200 : Nat) < 400)
  · have hspares : SparesActivity c s.world r.patch?
        (activity server.caching s.tally s.world.gauge (Route.ofPath r.target.path) r) :=
      spares_activity s.tally s.world.gauge r hown
    have hends := hspares (some (s.world.timer + server.requestTimeout))
    simp only [Server.serve, if_neg hoptions]
    generalize runActivity c _ _ s.world = ran at hends ⊢
    obtain ⟨_ | response, w'⟩ := ran
    · -- cut off, and answered 408
      have hcut : Spares c s.world r.patch? (bare 408) w' :=
        ⟨fun hrefused => by simp [bare] at hrefused, fun hbroken => by simp [bare] at hbroken⟩
      refine hcut.of_status ?_
      split <;> rfl
    · refine (hends response w' rfl).of_status ?_
      split <;> rfl

/-- In every state that requests to an empty store can lead to, whatever is cached by then: a
request that is refused leaves the tasks, the gauge and the cached lists as they were. One that
fails inside leaves the gauge and the tasks, but for an update that is stored and cannot be read
back, which leaves the old tasks with that one merged. And an update of a task that is not there is
refused as such, whatever its patch says. -/
theorem failed_requests_change_nothing {server : Server} {c₀ : Conditions} {w₀ : World}
    {p : Requests} {trace : List (Event fun _ : Operation Outcome => Outcome)} {s : State}
    (hempty : w₀.table = .empty) (hreach : RunsRequests server.caching c₀ ⟨w₀, []⟩ trace p)
    (hs : s.world.table = p.world.table) (c : Conditions) (r : Incoming) :
    ((server.serve c r s).1.status = 400 ∨ (server.serve c r s).1.status = 404
        ∨ (server.serve c r s).1.status = 405 →
      s.world.SameContents (server.serve c r s).2.world)
    ∧ ((server.serve c r s).1.status = 500 →
      (server.serve c r s).2.world.gauge = s.world.gauge
      ∧ (∀ patch old merged, r.patch? = some patch → ReadBackFails c s.world patch old merged →
        (server.serve c r s).2.world.table = mergedTable s.world patch old merged)
      ∧ ((∀ patch old merged, r.patch? = some patch →
          ¬ ReadBackFails c s.world patch old merged) →
        (server.serve c r s).2.world.table = s.world.table))
    ∧ ∀ patch : Patch, s.world.table.get? patch.id = none →
      (c.store s.world.storeCalls.length (.get patch.id)).failure = none →
      ∃ w', run c none (Service.update server.caching patch) s.world
          = (some (.error (.notFound patch.id)), w')
        ∧ s.world.SameContents w' := by
  have hown : s.world.table.OwnIds := by
    have hintact : Intact c₀ p := intact_run beginsCareful_requests (.of_empty hempty) hreach
    rw [hs]
    exact Table.Each.ownIds hintact.sound
  obtain ⟨hrefused, hbroken⟩ := spares_serve server c r hown
  refine ⟨hrefused, ?_, ?_⟩
  · intro hstatus
    cases hbroken hstatus with
    | same hback hsame =>
      exact ⟨hsame.2, fun patch old merged hpatch h => absurd h (hback patch old merged hpatch),
        fun _ => hsame.1⟩
    | @merged patch old merged hpatch hback htable hgauge =>
      refine ⟨hgauge, ?_, fun hnone => absurd hback (hnone patch old merged hpatch)⟩
      intro patch' old' merged' hpatch' hback'
      obtain rfl := Option.some.inj (hpatch.symm.trans hpatch')
      obtain rfl := Option.some.inj (hback.finds.symm.trans hback'.finds)
      obtain rfl := Except.ok.inj (hback.merges.symm.trans hback'.merges)
      exact htable
  · intro patch hnone hloads
    exact Service.update_unknown hnone hloads

/-- The third store call fails. -/
def thirdFails : Conditions where
  store n _ := { delay := 0, failure := if n = 2 then some "down" else none }
  cache _ _ := .ends 0 none
  id := generatedId

/-- The task of the first create request. -/
def firstTask : Task := Draft.toTask { title := "x" } (generatedId 0) ({} : World).now

/-- The store after the first create request. -/
def firstTable : Table := Keyed.empty.insert firstTask.id firstTask

/-- A rename is stored and cannot be read back: it is answered 500, and the task has its new
title. -/
theorem failed_rename_is_stored :
    ∃ trace p task, RunsRequests none (Probe.conditions {}) ⟨{}, []⟩ trace p
      ∧ p.world.table.get? (generatedId 0) = some task ∧ task.title = "x"
      ∧ ((⟨none, 1000⟩ : Server).serve thirdFails renameRequest
        { world := { table := p.world.table } }).1.status = 500
      ∧ ((⟨none, 1000⟩ : Server).serve thirdFails renameRequest
        { world := { table := p.world.table } }).2.world.table.get? (generatedId 0)
          = some { task with title := "y" } := by
  obtain ⟨next, hcreate⟩ := exists_create_mem
  -- the task is created
  have hcreated : RunsRequests none (Probe.conditions {}) ⟨{}, []⟩ _
      ⟨{ table := firstTable, ids := 1 }, [⟨_, next (.ok firstTask), 0⟩]⟩ :=
    (runs_begin ⟨{}, createRequest, hcreate⟩).trans (runs_perform rfl)
  have hstatus : ((⟨none, 1000⟩ : Server).serve thirdFails renameRequest
      { world := { table := firstTable } }).1.status = 500 := by decide +kernel
  have hpatch : renameRequest.patch?
      = some (UpdateRequest.toPatch { title := some " y " } (generatedId 0)) := by decide +kernel
  have hmerge : (UpdateRequest.toPatch { title := some " y " } (generatedId 0)).merge firstTask
      = .ok { firstTask with title := "y" } := by decide +kernel
  have hback : ReadBackFails thirdFails { table := firstTable }
      (UpdateRequest.toPatch { title := some " y " } (generatedId 0)) firstTask
      { firstTask with title := "y" } :=
    ⟨rfl, by simp [firstTable, firstTask, Draft.toTask, UpdateRequest.toPatch], hmerge, rfl, rfl⟩
  obtain ⟨-, hbroken, -⟩ := @failed_requests_change_nothing ⟨none, 1000⟩ _ _ _ _
    { world := { table := firstTable } } rfl hcreated rfl thirdFails renameRequest
  obtain ⟨-, htable, -⟩ := hbroken hstatus
  refine ⟨_, _, firstTask, hcreated, ?_, rfl, hstatus, ?_⟩
  · simp [firstTable, firstTask, Draft.toTask]
  · rw [htable _ _ _ hpatch hback, mergedTable, Keyed.get?_insert]
    exact if_pos rfl

end Http

end TaskBoard
