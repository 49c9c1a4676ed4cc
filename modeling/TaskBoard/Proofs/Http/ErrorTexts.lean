import TaskBoard.Proofs.Http.Counted
import TaskBoard.Proofs.Http.Gauge
import TaskBoard.Proofs.Run.Alike

/-!
# What a store says about its failure stays inside

A failure of the store becomes an answer without its text, and a failure of the cache becomes none
at all. So two runs of the same requests, in which the same calls fail with different texts, cannot
be told apart from outside.

* `perform_alike`, `Service.update_alike` and its like: the operations go on alike whatever the
  texts say;
* `answer_eq`: where an error becomes a response its text is lost;
* `blind_activity`, `serve_alike`, `receiveAll_alike`: for one request, and for many;
* `error_texts_unseen`: what can be seen of two such runs.
-/

namespace TaskBoard

open Run

variable {caching : Option Caching} {α β : Type}

/-! ## The service -/

/-- What comes after an answer goes on alike if it does so after a value and passes on an error. -/
theorem Agree.bind_alike {f : Except TaskError α → Operation (Except TaskError β)}
    (herror : ∀ e, f (.error e) = .done (.error e))
    (hok : ∀ a, (f (.ok a)).Alike SameButText (f (.ok a))) :
    ∀ result result', SameButText result result' →
      (f result).Alike SameButText (f result') := by
  rintro _ _ (⟨rfl⟩ | h)
  · exact hok _
  · rw [herror, herror]
    exact .done (.error h)

theorem ask_alike (call : StoreCall) :
    (Operation.ask call).Alike SameButText (Operation.ask call) :=
  .store fun _ _ h => .done h

/-- A flush does not care how it ends. -/
theorem flush_alike (caching : Option Caching) :
    (Caching.flush caching).Alike Eq (Caching.flush caching) := by
  cases caching with
  | none => exact .done rfl
  | some g => exact .cache fun _ _ _ => .done rfl

theorem readThrough_alike (g : Caching) (q : Query) :
    (g.readThrough q).Alike SameButText (g.readThrough q) := by
  refine .store ?_
  rintro _ _ (⟨rfl⟩ | h)
  · exact .cache fun _ _ _ => .done (.ok rfl)
  · exact .done (.error h)

/-- A call of the cached store goes on alike. -/
theorem perform_alike (caching : Option Caching) (call : StoreCall) :
    (Caching.perform caching call).Alike SameButText (Caching.perform caching call) := by
  have hflush : ∀ {γ : Type} (a : γ), ((Caching.flush caching).map fun _ =>
      (Except.ok a : Except TaskError γ)).Alike SameButText
        ((Caching.flush caching).map fun _ => .ok a) :=
    fun a => (flush_alike caching).map fun _ _ _ => .ok rfl
  cases call with
  | get id => exact ask_alike _
  | count => exact ask_alike _
  | countFiltered f => exact ask_alike _
  | create draft =>
    refine .store ?_
    rintro _ _ (⟨rfl⟩ | h)
    · exact hflush _
    · exact .done (.error h)
  | update task =>
    refine .store ?_
    rintro _ _ (⟨rfl⟩ | h)
    · exact hflush _
    · exact .done (.error h)
  | delete id =>
    refine .store ?_
    rintro _ _ (@⟨deleted, _, rfl⟩ | h)
    · cases deleted with
      | true => exact hflush _
      | false => exact .done (.ok rfl)
    · exact .done (.error h)
  | list q =>
    cases caching with
    | none => exact ask_alike (.list q.normalized)
    | some g =>
      refine .cache ?_
      rintro _ _ (@⟨cached, _, rfl⟩ | h)
      · cases cached with
        | none => exact readThrough_alike g q.normalized
        | some text =>
          simp only
          split
          · exact .done (.ok rfl)
          · exact readThrough_alike g q.normalized
      · -- whatever has gone wrong with the cache, the store is asked
        exact readThrough_alike g q.normalized

namespace Service

theorem create_alike (draft : Draft) :
    (create caching draft).Alike SameButText (create caching draft) := by
  unfold create
  split
  · exact .done (.error (.refl _))
  · refine (perform_alike caching _).bind (Agree.bind_alike (fun _ => rfl) fun task => ?_)
    exact .gauge (.done (.ok rfl))

theorem get_alike (id : String) : (get caching id).Alike SameButText (get caching id) :=
  perform_alike caching (.get id)

theorem update_alike (p : Patch) :
    (update caching p).Alike SameButText (update caching p) := by
  unfold update
  refine (perform_alike caching _).bind (Agree.bind_alike (fun _ => rfl) fun task => ?_)
  simp only
  split
  · exact .done (.error (.refl _))
  · exact (perform_alike caching _).bind
      (Agree.bind_alike (fun _ => rfl) fun _ => perform_alike caching (.get p.id))

theorem delete_alike (id : String) :
    (delete caching id).Alike SameButText (delete caching id) := by
  unfold delete
  refine (perform_alike caching _).bind (Agree.bind_alike (fun _ => rfl) fun deleted => ?_)
  cases deleted with
  | true => exact .gauge (.done (.ok rfl))
  | false => exact .done (.error (.refl _))

end Service

namespace Http

/-! ## The server -/

/-- Where an error becomes a response its text is lost. -/
theorem answer_eq {good : α → Response} {result result' : Except TaskError α}
    (h : SameButText result result') : answer good result = answer good result' := by
  cases h with
  | ok heq => rw [heq]
  | error herror =>
    cases herror with
    | refl e => rfl
    | persistence detail detail' => rfl

theorem blind_only (r : Response) : (only r).Blind := .single (.done rfl)

/-- An operation that goes on alike is answered without the texts. -/
theorem blind_answer {op : Operation (Except TaskError α)} (h : op.Alike SameButText op)
    (good : α → Response) : (Activity.single (op.map (answer good))).Blind :=
  .single (h.map fun _ _ => answer_eq)

theorem blind_withValue {value : Except Fault α} {act : α → Activity Response}
    (h : ∀ a, (act a).Blind) : (withValue value act).Blind := by
  cases value with
  | ok a => exact h a
  | error f => exact blind_only _

theorem blind_withId {segment : List Char} {act : String → Activity Response}
    (h : ∀ id, (act id).Blind) : (withId segment act).Blind := by
  unfold withId
  split
  · exact h _
  · exact blind_only _

theorem blind_listTasks (caching : Option Caching) (query : Option (List Char)) :
    (listTasks caching query).Blind := by
  refine blind_withValue fun q => ?_
  refine .pair (perform_alike caching (.list q.normalized)) fun result result' h => ?_
  refine answer_eq ?_
  cases h with
  | ok heq =>
    cases heq
    exact .ok rfl
  | error herror => exact .error herror

/-- What a request makes the server do does not depend on the texts of errors. -/
theorem blind_activity (caching : Option Caching) (tally : Metrics.Tally) (gauge : Int64)
    (route : Option Route) (r : Incoming) : (activity caching tally gauge route r).Blind := by
  unfold activity
  split
  · exact blind_only _
  · split
    · exact blind_only _
    · exact blind_only _
  · split
    · exact blind_only _
    · exact blind_only _
  · split
    · exact blind_listTasks caching _
    · split
      · exact blind_withValue fun request => blind_answer (Service.create_alike _) _
      · exact blind_only _
  · split
    · exact blind_withId fun id => blind_answer (Service.get_alike id) _
    · split
      · refine blind_withId fun id => blind_withValue fun request => ?_
        exact blind_answer (Service.update_alike _) _
      · split
        · exact blind_withId fun id => blind_answer (Service.delete_alike id) _
        · exact blind_only _

/-- One request under conditions that fail alike: the same answer and the same state after it. -/
theorem serve_alike {c c' : Conditions} (hc : c.Alike c') (server : Server) (r : Incoming)
    (s : State) : server.serve c r s = server.serve c' r s := by
  have hrun := runActivity_alike (some (s.world.timer + server.requestTimeout)) hc
    (blind_activity server.caching s.tally s.world.gauge (Route.ofPath r.target.path) r) s.world
  unfold Server.serve
  simp only [hrun]

/-- The same request at the same time, under conditions that fail alike. -/
structure Arrival.Alike (a a' : Arrival) : Prop where
  conditions : a.conditions.Alike a'.conditions
  request_eq : a.request = a'.request
  pause_eq : a.pause = a'.pause
  wall_eq : a.wall = a'.wall

theorem receive_alike {a a' : Arrival} (h : a.Alike a') (server : Server) (s : State) :
    server.receive a s = server.receive a' s := by
  unfold Server.receive
  rw [h.request_eq, h.pause_eq, h.wall_eq]
  exact serve_alike h.conditions server _ _

/-- Requests one after another, under conditions that fail alike. -/
theorem receiveAll_alike {arrivals arrivals' : List Arrival}
    (h : List.Forall₂ Arrival.Alike arrivals arrivals') (server : Server) (s : State) :
    server.receiveAll arrivals s = server.receiveAll arrivals' s := by
  -- one request leaves the same state in both runs, and the rest begins there
  induction h generalizing s with
  | nil => rfl
  | cons ha _ ih =>
    rw [receiveAll_cons, receiveAll_cons, receive_alike ha, ha.request_eq, ih]

/-! ## What can be seen -/

/-- What a client makes of a response, by the operation that it is taken for an answer to. -/
structure ClientView where
  health : Except ClientError Unit
  list : Except ClientError Page
  get : Except ClientError Task
  create : Except ClientError Task
  update : Except ClientError Task
  delete : Except ClientError Unit

/-- A client reads a response. -/
def Response.view (r : Response) : ClientView where
  health := Client.readHealth r
  list := Client.readList r
  get := Client.readGet r
  create := Client.readCreate r
  update := Client.readUpdate r
  delete := Client.readDelete r

/-- What there is to see of a server after some requests: the responses and what clients make of
them, the stored tasks, the cached lists, the gauge and the metrics text. -/
structure Outside where
  responses : List Response
  views : List ClientView
  tasks : Table
  cached : MemoryCache
  gauge : Int64
  metrics : String

/-- What there is to see of a server after requests that come one after another. -/
def Server.outside (server : Server) (arrivals : List Arrival) (s : State) : Outside :=
  let (log, s) := server.receiveAll arrivals s
  { responses := log.map Exchanged.response
    views := log.map fun e => e.response.view
    tasks := s.world.table
    cached := s.world.cache
    gauge := s.world.gauge
    metrics := s.tally.render s.world.gauge }

/-- In two runs of the same requests from the same state, in which the same calls of the store and
of the cache fail and nothing but the texts of the failures differs, there is the same to see after
every request. -/
theorem error_texts_unseen {arrivals arrivals' : List Arrival}
    (h : List.Forall₂ Arrival.Alike arrivals arrivals') (server : Server) (s : State) (n : Nat) :
    server.outside (arrivals.take n) s = server.outside (arrivals'.take n) s := by
  have hrun : server.receiveAll (arrivals.take n) s = server.receiveAll (arrivals'.take n) s :=
    receiveAll_alike (List.forall₂_take n h) server s
  unfold Server.outside
  rw [hrun]

/-- Lists and the cache fail, and both failures give a text. -/
def telling (text : String) : Conditions where
  store _ call := ⟨0, if call.kind = .list then some text else none⟩
  cache _ _ := .ends 0 (some (.connection text))
  id := generatedId

theorem telling_alike (text text' : String) : (telling text).Alike (telling text') where
  store _ call := by
    refine ⟨rfl, ?_⟩
    simp only [telling]
    split
    · exact .some trivial
    · exact .none
  cache _ _ := .ends 0 (.some trivial)
  id_eq := rfl

/-- A request to create a task, one for the tasks and one for the metrics. -/
def createListMetrics (c : Conditions) : List Arrival :=
  let get (path : String) : Incoming := ⟨"GET", ⟨path.toList, none⟩, [], []⟩
  [⟨c, createRequest, 0, 0⟩, ⟨c, get "/api/v1/tasks", 5, 0⟩, ⟨c, get "/metrics", 5, 0⟩]

/-- A task is created while the flush fails, and the list of tasks fails with the store. What the
store says differs, and is not to be seen. -/
theorem error_texts_unseen_of_list :
    let server : Server := { caching := some ⟨60000, 500⟩, requestTimeout := 1000 }
    let here := telling "connection refused at 10.0.0.3"
    let there := telling "disk full"
    (run here none (Caching.perform none (.list .default)) {}).1
        = some (.error (.persistence "connection refused at 10.0.0.3"))
      ∧ (run there none (Caching.perform none (.list .default)) {}).1
        = some (.error (.persistence "disk full"))
      ∧ (server.outside (createListMetrics here) {}).responses.map Response.status
        = [201, 500, 200]
      ∧ server.outside (createListMetrics here) {}
        = server.outside (createListMetrics there) {} := by
  intro server here there
  have halike : ∀ a a' : Conditions, a.Alike a' →
      List.Forall₂ Arrival.Alike (createListMetrics a) (createListMetrics a') := fun a a' h =>
    .cons ⟨h, rfl, rfl, rfl⟩ (.cons ⟨h, rfl, rfl, rfl⟩ (.cons ⟨h, rfl, rfl, rfl⟩ .nil))
  refine ⟨rfl, rfl, by decide +kernel, ?_⟩
  exact error_texts_unseen (halike here there (telling_alike _ _)) server {} 3

end Http

end TaskBoard
