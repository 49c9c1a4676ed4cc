import TaskBoard.Proofs.Http.Counted
import TaskBoard.Proofs.Http.Failure
import TaskBoard.Proofs.Instant.Offset
import TaskBoard.Proofs.Service.DueDate
import TaskBoard.Proofs.Task.Formats
import TaskBoard.Proofs.Task.Presence

/-!
# Due dates keep their instant

A due date may be written by the clocks of any place, with any number of digits. The instant is
stored to the microsecond, and whoever asks for the task afterwards, or for a list that it is in, is
shown this instant, until an update gives the task another one.

* `holds_receiveAll`: requests one after another leave what each of them leaves;
* `allows_activity`: which requests leave a due date;
* `written_of_sets`: what a request that sets a due date is answered, and what it leaves;
* `due_date_kept`: all that is shown from then on.
-/

namespace TaskBoard.Http

open Json Run Text

variable {server : Server} {s : State} {c : Conditions}

/-! ## Requests that leave something as it is -/

/-- What the activity of a request leaves, the request leaves. -/
theorem holds_receive {k : Contract} {a : Arrival} (hk : k.Sound a.conditions)
    (hallows : ∀ tally gauge, k.Allows (fun _ => True)
      (activity server.caching tally gauge (Route.ofPath a.request.target.path) a.request))
    (hs : k.Holds s.world) : k.Holds (server.receive a s).2.world := by
  have hbegin : k.Holds { s.world with timer := s.world.timer + a.pause, wall := a.wall } :=
    hk.frame (w := s.world) rfl rfl rfl hs
  unfold Server.receive Server.serve
  simp only
  split
  · exact hbegin
  · exact ((hallows _ _).runActivity hk hbegin).1

theorem holds_receiveAll {Holds : World → Prop} {arrivals : List Arrival}
    (hstep : ∀ a ∈ arrivals, ∀ s : State, Holds s.world → Holds (server.receive a s).2.world)
    (hs : Holds s.world) : Holds (server.receiveAll arrivals s).2.world := by
  induction arrivals generalizing s with
  | nil => exact hs
  | cons a rest ih =>
    rw [receiveAll_cons]
    exact ih (fun b hb => hstep b (List.mem_cons_of_mem _ hb)) (hstep a List.mem_cons_self s hs)

/-- Every task is under its own id, whatever is done. -/
def ownIds : Contract where
  Holds w := w.table.OwnIds
  May _ := True
  Tells _ _ := True
  MayCache _ := True
  TellsCache _ _ := True

theorem sound_ownIds (c : Conditions) : ownIds.Sound c where
  frame := by
    intro w w' htable _ _ hw
    show w'.table.OwnIds
    rw [htable]
    exact hw
  store := by
    intro call failure w _ hw
    cases failure with
    | some detail => exact ⟨hw, trivial⟩
    | none => exact ⟨hw.perform call, trivial⟩
  cache := by
    intro call failure w _ hw
    cases failure with
    | some e => exact ⟨hw, trivial⟩
    | none => exact ⟨hw, trivial⟩

theorem abides_ownIds {α : Type} (op : Operation α) : Abides ownIds (fun _ => True) op := by
  induction op with
  | done a => exact .done trivial
  | store call next ih => exact .store trivial fun reply _ => ih reply
  | cache limit call next ih => exact .cache trivial fun reply _ => ih reply
  | gauge change next ih => exact .gauge ih

/-- Whatever requests come, every task stays under its own id. -/
theorem own_receiveAll (arrivals : List Arrival) (hs : s.world.table.OwnIds) :
    (server.receiveAll arrivals s).2.world.table.OwnIds := by
  show ownIds.Holds _
  refine holds_receiveAll (fun a _ s hs => ?_) hs
  refine holds_receive (sound_ownIds a.conditions) (fun tally gauge => ?_) hs
  cases activity server.caching tally gauge (Route.ofPath a.request.target.path) a.request with
  | single op => exact abides_ownIds op
  | pair page filter combine => exact ⟨_, abides_ownIds page, fun _ _ => trivial⟩

/-! ## Requests that leave a due date -/

section Leaves

variable {id : String} {due : Option Instant} {first : Nat}

/-- No update gives the task another due date, and no task is created under its id. -/
structure Arrival.Leaves (a : Arrival) (id : String) (due : Option Instant) (first : Nat) :
    Prop where
  patch : ∀ p, a.request.patch? = some p → p.id = id →
    (p.dueDate.map Instant.toMicros).apply due = due
  unused : ∀ n, first ≤ n → a.conditions.id n ≠ id

/-- Whatever such a request makes the server do leaves the due date. -/
theorem allows_activity {a : Arrival} (h : a.Leaves id due first) (caching : Option Caching)
    (tally : Metrics.Tally) (gauge : Int64) :
    (DueDate.contract caching a.conditions id due first).Allows (fun _ => True)
      (activity caching tally gauge (Route.ofPath a.request.target.path) a.request) := by
  obtain ⟨hpatch, hunused⟩ := h
  have hdoes := does_activity caching tally gauge a.request
  generalize a.request.patch? = patch at hpatch hdoes
  generalize activity caching tally gauge (Route.ofPath a.request.target.path) a.request = doing
    at hdoes ⊢
  cases hdoes with
  | answers => exact .done trivial
  | lists q => exact (DueDate.allows_list q).map fun _ _ => trivial
  | creates request => exact (DueDate.leaves_create rfl hunused).map fun _ _ => trivial
  | gets key => exact (DueDate.leaves_get key).map fun _ _ => trivial
  | updates key request => exact (DueDate.leaves_update (hpatch _ rfl)).map fun _ _ => trivial
  | deletes key => exact (DueDate.leaves_delete key).map fun _ _ => trivial

/-- Requests that leave the due date leave it one after another. -/
theorem leaves_receiveAll {arrivals : List Arrival}
    (h : ∀ a ∈ arrivals, a.Leaves id due first)
    (hs : DueDate.Holds server.caching id due first s.world) :
    DueDate.Holds server.caching id due first (server.receiveAll arrivals s).2.world :=
  holds_receiveAll (fun a ha _ hs => holds_receive
    (k := DueDate.contract server.caching a.conditions id due first) DueDate.sound_contract
    (allows_activity (h a ha) server.caching) hs) hs

end Leaves

/-! ## Requests that set a due date -/

/-- An instant as a string that is its text by the clocks of some place. -/
def ZonedText (t : Instant) (cs : List Char) : Prop :=
  ∃ (s : String) (minutes : Int), StringText s cs ∧ t.TextAt minutes s.toList

theorem ZonedText.instantText {t : Instant} {cs : List Char} (h : ZonedText t cs) :
    InstantText t cs := by
  obtain ⟨s, minutes, hs, ht⟩ := h
  exact ⟨s, hs, Instant.read_textAt ht⟩

/-- The body of the request is declared as JSON, not too long, and an object with these members. -/
structure Incoming.Carries (r : Incoming) (ms : List (String × List Char)) : Prop where
  declared : (r.headers.get? "content-type").any MediaType.isJson = true
  short : r.body.length ≤ maxBodyLength
  text : ∃ text, ObjectText ms text ∧ r.body = utf8Encode text

theorem Incoming.Carries.readBody {α : Type} {read : Json.Reader α} {r : Incoming}
    {ms : List (String × List Char)} {a : α} (h : r.Carries ms)
    (hdecode : ∀ {text}, ObjectText ms text → read.decode (text.map .char) = .ok a) :
    readBody read r.headers r.body = .ok a := by
  obtain ⟨hdeclared, hshort, text, htext, hbody⟩ := h
  have hlong : ¬ maxBodyLength < r.body.length := Nat.not_lt.2 hshort
  rw [Http.readBody, hdeclared, if_neg hlong, hbody, utf8Decode_utf8Encode, hdecode htext]
  rfl

/-- A request to create or update a task that is acceptable, with a due date that is told by the
clocks of some place: the instant, the id of the task, and the status of the answer. A task is
created under an id that is free; a task that is updated is there. -/
inductive Sets (c : Conditions) (w : World) (t : Instant) : Incoming → String → Nat → Prop where
  | create {r : Incoming} {request : CreateRequest} {ms : List (String × List Char)}
      (hmethod : r.method = "POST") (hroute : Route.ofPath r.target.path = some .tasks)
      (hbody : r.Carries ms) (hspelled : request.SpelledBy ZonedText ms)
      (hdue : request.dueDate = some t)
      (htitle : ¬ ∀ c ∈ request.title.toList, isBlank c = true)
      (hfree : w.table.get? (c.id w.ids) = none) : Sets c w t r (c.id w.ids) 201
  | update {r : Incoming} {request : UpdateRequest} {ms : List (String × List Char)}
      {segment : List Char} {id : String} {old : Task}
      (hmethod : r.method = "PUT") (hroute : Route.ofPath r.target.path = some (.task segment))
      (hid : Route.decodeId segment = some id)
      (hbody : r.Carries ms) (hspelled : request.SpelledBy ZonedText ms)
      (hdue : request.dueDate = .set t) (htitle : ¬ request.BlankTitle)
      (hold : w.table.get? id = some old) : Sets c w t r id 200

/-- The methods whose answers are those of their activities. -/
theorem plainMethod {m : String} (h : m = "GET" ∨ m = "POST" ∨ m = "PUT") :
    m ≠ "OPTIONS" ∧ m ≠ "HEAD" := by
  rcases h with rfl | rfl | rfl <;> decide

/-- A single operation that has a value is run as if there were no deadline. -/
theorem runActivity_of_value {α : Type} {deadline : Option Nat} {op : Operation α} {a : α}
    {w : World} (h : (runActivity c deadline (.single op) w).1 = some a) :
    runActivity c deadline (.single op) w = run c none op w := by
  unfold runActivity at h ⊢
  split at h
  · cases h
  · rename_i hlate
    have hran : run c deadline op w = (some a, (run c deadline op w).2) := Prod.ext h rfl
    rw [if_neg hlate, run_of_value hran]
    exact hran

/-- An operation that goes well and is not cut off is answered with its value, and the world is as
the operation leaves it. -/
theorem served_of_run {α : Type} {r : Incoming} {op : Operation (Except TaskError α)}
    {good : α → Response} {a : α} {w' : World} (hmethod : r.method ≠ "OPTIONS" ∧ r.method ≠ "HEAD")
    (hactivity : activity server.caching s.tally s.world.gauge (Route.ofPath r.target.path) r
      = .single (op.map (answer good)))
    (hrun : run c none op s.world = (some (.ok a), w')) (htime : InTime (server.serve c r s).1) :
    (server.serve c r s).1 = shared (good a) ∧ (server.serve c r s).2.world = w' := by
  obtain ⟨hresponse, hworld⟩ := serve_activity hmethod.1 hmethod.2 hactivity c
  rw [hresponse] at htime ⊢
  rw [hworld]
  -- what is not cut off runs as if there were no deadline
  have hanswer : run c none (op.map (answer good)) s.world = (some (good a), w') := by
    rw [run_map, hrun]
    rfl
  cases hvalue : (runActivity c (some (s.world.timer + server.requestTimeout))
      (.single (op.map (answer good))) s.world).1 with
  | none =>
    rw [hvalue] at htime
    exact absurd rfl htime
  | some response =>
    have hran := runActivity_of_value hvalue
    rw [hanswer] at hran
    rw [hran] at hvalue
    rw [hran, ← Option.some.inj hvalue]
    exact ⟨rfl, rfl⟩

/-- A request that sets a due date is answered with the task, which is stored as it is shown, and no
list from before stays in the cache. -/
theorem written_of_sets {r : Incoming} {t : Instant} {id : String} {status : Nat}
    (hsets : Sets c s.world t r id status) (hown : s.world.table.OwnIds)
    (hc : c.Reliable) (htime : InTime (server.serve c r s).1) :
    ∃ task : Task, task.id = id ∧ task.dueDate = some t.toMicros
      ∧ (server.serve c r s).1 = shared (withJson status task.toJson)
      ∧ (server.serve c r s).2.world.table = s.world.table.insert task.id task
      ∧ ∀ g, server.caching = some g → c.CacheReliable g →
        Caching.NoLists (server.serve c r s).2.world.cache := by
  have hread : isRead "POST" = false ∧ isRead "PUT" = false := by decide
  cases hsets with
  | @create request ms hmethod hroute hbody hspelled hdue htitle hfree =>
    -- the body stands for this request, so the activity is its create
    have hrequest := hbody.readBody fun htext => CreateRequest.decode_of_spelledBy
      (hspelled.mono fun _ _ => ZonedText.instantText) htext
    have hactivity : activity server.caching s.tally s.world.gauge (Route.ofPath r.target.path) r
        = .single ((Service.create server.caching request.toDraft).map
          (answer fun task => withJson 201 task.toJson)) := by
      simp only [activity, hroute, hmethod, hread.1, Bool.false_eq_true, if_false, if_true]
      exact withValue_ok hrequest _
    obtain ⟨task, w', hrun, rfl, htable, hflushed⟩ : ∃ task w',
        run c none (Service.create server.caching request.toDraft) s.world
          = (some (.ok task), w') ∧ _ :=
      Service.run_create_flushed hc rfl (normalizeTitle_of_not_blank htitle) hfree
    obtain ⟨hresponse, hworld⟩ := served_of_run (plainMethod (.inr (.inl hmethod))) hactivity hrun
      htime
    rw [hworld]
    refine ⟨_, rfl, ?_, hresponse, htable, hflushed⟩
    simp [Draft.toTask, CreateRequest.toDraft, hdue]
  | @update request ms segment _ old hmethod hroute hid hbody hspelled hdue htitle hold =>
    have hrequest := hbody.readBody fun htext => UpdateRequest.decode_of_spelledBy
      (hspelled.mono fun _ _ => ZonedText.instantText) htext
    have hactivity : activity server.caching s.tally s.world.gauge (Route.ofPath r.target.path) r
        = .single ((Service.update server.caching (request.toPatch id)).map
          (answer fun task => withJson 200 task.toJson)) := by
      simp only [activity, hroute, hmethod, hread.2, Bool.false_eq_true, if_false, if_true]
      exact (withId_eq hid _).trans (withValue_ok hrequest _)
    have hkey : old.id = id := hown id old hold
    -- the title is acceptable, so the task that is there takes the patch
    obtain ⟨merged, hmerge, hreflects⟩ :=
      UpdateRequest.merge_toPatch htitle id old s.world.now
    obtain ⟨w', hrun, htable, -, hflushed⟩ : ∃ w',
        run c none (Service.update server.caching (request.toPatch id)) s.world = (_, w') ∧ _ :=
      Service.run_update_flushed hc hold hkey hmerge
    obtain ⟨hresponse, hworld⟩ := served_of_run (plainMethod (.inr (.inr hmethod))) hactivity hrun
      htime
    have hreplaced : (old.replaced merged s.world.now).id = id := hkey
    rw [hworld, htable, ← hreplaced]
    refine ⟨_, rfl, ?_, hresponse, rfl, hflushed⟩
    rw [hreflects.dueDate_eq, hdue]

/-! ## Answers that show a due date -/

section Shows

variable {id : String} {due : Option Instant} {first : Nat}

/-- The answer shows the task with this id, and that it has this due date. -/
def Response.ShowsTask (r : Response) (id : String) (due : Option Instant) : Prop :=
  ∃ task : Task, Task.reader.decode (r.body.toList.map .char) = .ok task ∧ task.id = id
    ∧ task.dueDate = due

/-- The answer shows a page of tasks, and that the one with this id, if it is among them, has this
due date. -/
def Response.ShowsPage (r : Response) (id : String) (due : Option Instant) : Prop :=
  ∃ page : Page, Page.reader.decode (r.body.toList.map .char) = .ok page
    ∧ Task.AllDueAs id due page.items

theorem showsTask_withJson (status : Nat) (t : Task) :
    (withJson status t.toJson).ShowsTask t.id t.dueDate := by
  have hbody : (withJson status t.toJson).body.toList = t.toJson := String.toList_ofList
  refine ⟨t, ?_, rfl, rfl⟩
  rw [hbody]
  exact (Task.reads_task t).decode_eq t.lexes_toJson

theorem showsPage_pageResponse {p : Page} (h : Task.AllDueAs id due p.items) :
    (pageResponse p).ShowsPage id due := by
  have hbody : (pageResponse p).body.toList = p.toJson := String.toList_ofList
  refine ⟨p, ?_, h⟩
  rw [hbody]
  exact p.reads_page.decode_eq p.lexes_toJson

theorem status_error_ne (e : TaskError) : (Fault.ofTaskError e).toResponse.status ≠ 200 := by
  cases e with
  | invalidInput reason => exact (by decide : (400 : Nat) ≠ 200)
  | notFound id => exact (by decide : (404 : Nat) ≠ 200)
  | persistence detail => exact (by decide : (500 : Nat) ≠ 200)

/-- A request is answered with what its activity comes to, or cut off. -/
theorem good_receive {k : Contract} {good : Response → Prop} {a : Arrival}
    (hk : k.Sound a.conditions) (hmethod : a.request.method = "GET")
    (hallows : ∀ tally gauge, k.Allows good
      (activity server.caching tally gauge (Route.ofPath a.request.target.path) a.request))
    (hs : k.Holds s.world) :
    ∃ response, (server.receive a s).1 = shared response
      ∧ (response = bare 408 ∨ good response) := by
  have hbegin : k.Holds { s.world with timer := s.world.timer + a.pause, wall := a.wall } :=
    hk.frame (w := s.world) rfl rfl rfl hs
  obtain ⟨hoptions, hhead⟩ := plainMethod (.inl hmethod)
  refine ⟨_, (serve_activity hoptions hhead rfl a.conditions).1, ?_⟩
  obtain ⟨-, hgood⟩ := (hallows s.tally s.world.gauge).runActivity hk hbegin
  cases hvalue : (runActivity a.conditions _ _ _).1 with
  | none => exact .inl rfl
  | some response => exact .inr (hgood response hvalue)

/-- A task that is read is shown with its due date. If it is there and no store call fails it is
shown. -/
theorem get_shows {a : Arrival} {segment : List Char}
    (hs : DueDate.Holds server.caching id due first s.world) (hmethod : a.request.method = "GET")
    (hroute : Route.ofPath a.request.target.path = some (.task segment))
    (hid : Route.decodeId segment = some id) :
    ((server.receive a s).1.status = 200 → (server.receive a s).1.ShowsTask id due)
      ∧ (a.conditions.Reliable → s.world.table.get? id ≠ none → InTime (server.receive a s).1 →
        (server.receive a s).1.status = 200) := by
  have hread : isRead "GET" = true := by decide
  have hactivity : ∀ tally gauge,
      activity server.caching tally gauge (Route.ofPath a.request.target.path) a.request
        = .single ((Service.get server.caching id).map
          (answer fun t => withJson 200 t.toJson)) := by
    intro tally gauge
    simp only [activity, hroute, hmethod, hread, if_true]
    exact withId_eq hid _
  constructor
  · intro hstatus
    have hallows : ∀ tally gauge,
        (DueDate.contract server.caching a.conditions id due first).Allows
          (fun response => response.status = 200 → response.ShowsTask id due)
          (activity server.caching tally gauge (Route.ofPath a.request.target.path) a.request) := by
      intro tally gauge
      rw [hactivity]
      refine (DueDate.leaves_get id).map fun result htells hok => ?_
      cases result with
      | error e => exact absurd hok (status_error_ne e)
      | ok t =>
        obtain ⟨hkey, hdue⟩ := htells
        have hshows := showsTask_withJson 200 t
        rw [hkey, hdue hkey] at hshows
        exact hshows
    obtain ⟨response, hresponse, hgood⟩ :=
      good_receive DueDate.sound_contract hmethod hallows hs
    rw [hresponse] at hstatus ⊢
    rcases hgood with rfl | hgood
    · exact absurd hstatus (by decide)
    · exact hgood hstatus
  · intro hc hget htime
    obtain ⟨task, htask⟩ := Option.ne_none_iff_exists'.1 hget
    let w : World := { s.world with timer := s.world.timer + a.pause, wall := a.wall }
    have hstored : w.table.get? id = some task := htask
    have hpage : ∀ q, StoreCall.get id ≠ .list q := by
      intro q h
      cases h
    obtain ⟨reply, w', hcalled, hrun⟩ :=
      run_perform server.caching a.conditions (.get id) hpage w .done
    rw [Operation.bind_done, hcalled.get_eq hc hstored] at hrun
    have hserved := served_of_run (plainMethod (.inl hmethod)) (hactivity _ _) hrun htime
    exact congrArg Response.status hserved.1

/-- A page shows the due date. -/
theorem list_shows {a : Arrival} (hs : DueDate.Holds server.caching id due first s.world)
    (hmethod : a.request.method = "GET")
    (hroute : Route.ofPath a.request.target.path = some .tasks)
    (hstatus : (server.receive a s).1.status = 200) :
    (server.receive a s).1.ShowsPage id due := by
  have hread : isRead "GET" = true := by decide
  have hallows : ∀ tally gauge,
      (DueDate.contract server.caching a.conditions id due first).Allows
        (fun response => response.status = 200 → response.ShowsPage id due)
        (activity server.caching tally gauge (Route.ofPath a.request.target.path) a.request) := by
    intro tally gauge
    simp only [activity, hroute, hmethod, hread, if_true, listTasks]
    cases hquery : (ListParams.ofQuery a.request.target.query).bind ListParams.toQuery with
    | error f =>
      -- a bad query shows no page
      have hbad : f.status = 400 := ((onlyBad_ofQuery _).bind onlyBad_toQuery) f hquery
      refine .done fun hok => ?_
      have hok' : f.status = 200 := hok
      omega
    | ok q =>
      refine (DueDate.allows_list q).map fun result hpage hok => ?_
      cases result with
      | error e => exact absurd hok (status_error_ne e)
      | ok page => exact showsPage_pageResponse (hpage page rfl)
  obtain ⟨response, hresponse, hgood⟩ := good_receive DueDate.sound_contract hmethod hallows hs
  rw [hresponse] at hstatus ⊢
  rcases hgood with rfl | hgood
  · exact absurd hstatus (by decide)
  · exact hgood hstatus

/-- The task has this due date, if it is stored, and whoever asks for it or for a list is shown
nothing else. A task that is stored is shown, unless a store call fails or the time is up. -/
structure Server.ShowsDue (server : Server) (id : String) (due : Option Instant) (s : State) :
    Prop where
  stored : ∀ task, s.world.table.get? id = some task → task.dueDate = due
  get : ∀ (a : Arrival) (segment : List Char), a.request.method = "GET" →
    Route.ofPath a.request.target.path = some (.task segment) → Route.decodeId segment = some id →
    ((server.receive a s).1.status = 200 → (server.receive a s).1.ShowsTask id due)
      ∧ (a.conditions.Reliable → s.world.table.get? id ≠ none → InTime (server.receive a s).1 →
        (server.receive a s).1.status = 200)
  list : ∀ a : Arrival, a.request.method = "GET" →
    Route.ofPath a.request.target.path = some .tasks → (server.receive a s).1.status = 200 →
    (server.receive a s).1.ShowsPage id due

theorem showsDue_of_holds (hs : DueDate.Holds server.caching id due first s.world) :
    server.ShowsDue id due s where
  stored task htask := by
    obtain ⟨hid, hdue⟩ := hs.stored id task htask
    exact hdue hid
  get _ _ hmethod hroute hid := get_shows hs hmethod hroute hid
  list _ hmethod hroute hstatus := list_shows hs hmethod hroute hstatus

end Shows

/-! ## What is shown from then on -/

/-- Whether a request sets a due date depends on the tasks and the ids of the world alone. -/
theorem Sets.of_same {w w' : World} {t : Instant} {r : Incoming} {id : String} {status : Nat}
    (htable : w'.table = w.table) (hids : w'.ids = w.ids) (h : Sets c w t r id status) :
    Sets c w' t r id status := by
  cases h with
  | create hmethod hroute hbody hspelled hdue htitle hfree =>
    rw [← hids] at hfree ⊢
    rw [← htable] at hfree
    exact .create hmethod hroute hbody hspelled hdue htitle hfree
  | update hmethod hroute hid hbody hspelled hdue htitle hold =>
    rw [← htable] at hold
    exact .update hmethod hroute hid hbody hspelled hdue htitle hold

/-- A request that sets a due date by the clocks of any place is answered with the instant to the
microsecond, which is stored. Until an update gives the task another due date, or another task gets
its id, all that is stored of it and all that is shown of it, from the cache or not, has this due
date. -/
theorem due_date_kept (server : Server) (s₀ : State) (earlier : List Arrival) (a : Arrival)
    (t : Instant) (id : String) (status : Nat)
    (hown : s₀.world.table.OwnIds)
    (hsets : Sets a.conditions (server.receiveAll earlier s₀).2.world t a.request id status)
    (hc : a.conditions.Reliable)
    (hcache : ∀ g, server.caching = some g → a.conditions.CacheReliable g)
    (htime : InTime (server.receive a (server.receiveAll earlier s₀).2).1) :
    let answered := server.receive a (server.receiveAll earlier s₀).2
    answered.1.status = status
      ∧ answered.1.ShowsTask id (some t.toMicros)
      ∧ (∃ task, answered.2.world.table.get? id = some task
        ∧ task.dueDate = some t.toMicros)
      ∧ t.toMicros.seconds = t.seconds ∧ t.toMicros.nanos = t.nanos / 1000 * 1000
      ∧ ∀ later : List Arrival,
        (∀ b ∈ later, b.Leaves id (some t.toMicros) answered.2.world.ids) →
        server.ShowsDue id (some t.toMicros) (server.receiveAll later answered.2).2 := by
  have hown' : (server.receiveAll earlier s₀).2.world.table.OwnIds :=
    own_receiveAll earlier hown
  generalize (server.receiveAll earlier s₀).2 = s at hsets htime hown' ⊢
  intro answered
  -- the clocks that have moved meanwhile change nothing that the request depends on
  let w : World := { s.world with timer := s.world.timer + a.pause, wall := a.wall }
  have hsame : w.table = s.world.table ∧ w.ids = s.world.ids := ⟨rfl, rfl⟩
  have hsets' : Sets a.conditions w t a.request id status := hsets.of_same hsame.1 hsame.2
  obtain ⟨task, rfl, hdue, hresponse, htable, hflushed⟩ :=
    written_of_sets (s := ⟨w, s.tally⟩) hsets' hown' hc htime
  have hholds : DueDate.Holds server.caching task.id (some t.toMicros) answered.2.world.ids
      answered.2.world := by
    refine ⟨?_, fun hcaching => ?_, Nat.le_refl _⟩
    · have hinsert := hown'.insert_due hdue
      rwa [← htable] at hinsert
    · -- no list is left that could show what was there before
      obtain ⟨g, hg⟩ := Option.ne_none_iff_exists'.1 hcaching
      exact (hflushed g hg (hcache g hg)).cached
  have hmicros : t.toMicros.nanos = t.nanos / 1000 * 1000 := by
    show t.nanos - t.nanos % 1000 = _
    omega
  refine ⟨?_, ?_, ?_, rfl, hmicros, fun later hlater => ?_⟩
  · exact congrArg Response.status hresponse
  · have hshows := showsTask_withJson status task
    rw [hdue] at hshows
    rw [show answered.1 = _ from hresponse]
    exact hshows
  · refine ⟨task, ?_, hdue⟩
    rw [show answered.2.world.table = _ from htable, Keyed.get?_insert, if_pos rfl]
  · exact showsDue_of_holds (leaves_receiveAll hlater hholds)

/-! ## A leap second -/

/-- A time within the leap second that 2016 ended with. -/
def leapSecond : Instant := { seconds := 1483228799, nanos := 1123456700 }

/-- A request for a task that is due then, told an hour ahead of UTC: there it is 2017 already. -/
def leapRequest : Incoming where
  method := "POST"
  target := { path := "/api/v1/tasks".toList, query := none }
  headers := [("content-type", "application/json")]
  body := Text.utf8Encode
    "\x7b\"title\":\"x\",\"due_date\":\"2017-01-01T00:59:60.1234567+01:00\"\x7d".toList

/-- A request for the first page. -/
def pageRequest : Incoming where
  method := "GET"
  target := { path := "/api/v1/tasks".toList, query := none }
  headers := []
  body := []

/-- Nothing fails, and the first id is generated once. -/
def firstOnce : Conditions := { Probe.conditions {} with id := fun n => generatedId (min n 1) }

theorem sets_leapRequest : Sets firstOnce {} leapSecond leapRequest (generatedId 0) 201 := by
  have hfraction : Instant.Fraction (leapSecond.localReading (60 * 60)).nanos
      ('.' :: "1234567".toList) := by
    have hnanos : (leapSecond.localReading (60 * 60)).nanos
        = 1234567 * 10 ^ 9 / 10 ^ "1234567".toList.length := by decide +kernel
    rw [hnanos]
    exact .digits (by decide) (by decide +kernel)
  obtain ⟨cs, htext, rfl⟩ : ∃ cs, leapSecond.TextAt 60 cs
      ∧ cs = "2017-01-01T00:59:60.1234567+01:00".toList :=
    ⟨_, .mk (by decide) (by decide +kernel) (.inl rfl) hfraction (.ahead 60), by decide +kernel⟩
  let due := writeString "2017-01-01T00:59:60.1234567+01:00"
  have hdate : ZonedText leapSecond due := ⟨_, 60, stringText_writeString _, htext⟩
  let ms : List (String × List Char) := [("title", writeString "x"), ("due_date", due)]
  have hspelled : CreateRequest.SpelledBy { title := "x", dueDate := some leapSecond } ZonedText
      ms :=
    ⟨⟨_, rfl, stringText_writeString "x"⟩, .inl rfl, .inl rfl, ⟨_, rfl, hdate⟩,
      by simp [ms, CreateRequest.keys]⟩
  have hnone : Spaces [] := by simp [Spaces]
  have hmember : ∀ name value, MemberText name value (writeString name ++ ':' :: value) := by
    intro name value
    exact ⟨[], _, [], [], [], hnone, stringText_writeString name, hnone, hnone, hnone, by simp⟩
  have hobject : ObjectText ms _ := .members hnone
    (.more (hmember "title" (writeString "x")) (.last (hmember "due_date" due))) hnone
  have hbody : leapRequest.Carries ms :=
    ⟨by decide +kernel, by decide +kernel, _, hobject, by decide +kernel⟩
  have htitle : ¬ ∀ c ∈ "x".toList, isBlank c = true :=
    fun hblank => absurd (hblank 'x' (by decide)) (by decide)
  exact .create rfl (by decide +kernel) hbody hspelled rfl htitle rfl

/-- The task is shown as due in the leap second, to the microsecond: when it is created, and after a
rename when it is asked for and in a page. -/
theorem due_date_kept_of_leap_second :
    let server : Server := ⟨some ⟨60000, 100⟩, 1000⟩
    let arrival (r : Incoming) : Arrival := ⟨firstOnce, r, 0, 0⟩
    let due : Instant := { seconds := 1483228799, nanos := 1123456000 }
    let created := server.receive (arrival leapRequest) {}
    let now := (server.receiveAll [arrival renameRequest] created.2).2
    created.1.status = 201 ∧ created.1.ShowsTask (generatedId 0) (some due)
      ∧ (server.receive (arrival { renameRequest with method := "GET" }) now).1.ShowsTask
        (generatedId 0) (some due)
      ∧ (server.receive (arrival pageRequest) now).1.ShowsPage (generatedId 0) (some due) := by
  intro server arrival due
  have hreliable : firstOnce.Reliable := fun _ _ => rfl
  have hcache : ∀ g, server.caching = some g → firstOnce.CacheReliable g := by
    intro g hg n call
    rw [← Option.some.inj hg]
    rfl
  have hown : ({} : State).world.table.OwnIds := (Table.each_empty fun _ => True).ownIds
  have hkept := due_date_kept server {} [] (arrival leapRequest) leapSecond (generatedId 0) 201
    hown sets_leapRequest hreliable hcache (by decide +kernel)
  have hfirst : (server.receiveAll [] {}).2 = {} := rfl
  have hids : (server.receive (arrival leapRequest) {}).2.world.ids = 1 := by decide +kernel
  rw [hfirst] at hkept
  obtain ⟨hstatus, htask, -, -, -, hlater⟩ := hkept
  have hdue : leapSecond.toMicros = due := by decide
  rw [hdue] at htask
  rw [hids, hdue] at hlater
  -- the rename does not give the task another date, and its id does not come again
  have hunused : ∀ n, 1 ≤ n → firstOnce.id n ≠ generatedId 0 := by
    intro n hn
    show generatedId (min n 1) ≠ _
    rw [Nat.min_eq_right hn]
    decide +kernel
  have hleaves : ∀ b ∈ [arrival renameRequest], b.Leaves (generatedId 0) (some due) 1 := by
    have hpatch : renameRequest.patch?
        = some (UpdateRequest.toPatch { title := some " y " } (generatedId 0)) := by decide +kernel
    intro b hb
    rw [List.mem_singleton.1 hb]
    refine ⟨fun p hp _ => ?_, hunused⟩
    obtain rfl := Option.some.inj (hpatch.symm.trans hp)
    rfl
  have hshows := hlater _ hleaves
  have hroute : Route.ofPath renameRequest.target.path
      = some (.task (generatedId 0).toList) := by decide +kernel
  have hid : Route.decodeId (generatedId 0).toList = some (generatedId 0) := by decide +kernel
  obtain ⟨hget, hfound⟩ :=
    hshows.get (arrival { renameRequest with method := "GET" }) _ rfl hroute hid
  refine ⟨hstatus, htask, hget (hfound hreliable ?_ ?_), hshows.list _ rfl ?_ ?_⟩
  · decide +kernel
  · decide +kernel
  · decide +kernel
  · decide +kernel

end TaskBoard.Http
