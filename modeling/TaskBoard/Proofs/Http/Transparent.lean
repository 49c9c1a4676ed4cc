import TaskBoard.Http.Server
import TaskBoard.Proofs.Http.Target
import TaskBoard.Proofs.Run.InTime
import TaskBoard.Proofs.Task.Requests
import TaskBoard.Run.Probe

/-!
# A client is as good as the service

What a client is told by the server is what the service would have told it, and the server does
for it what the service would have done.

* `Errand.activity_call`: the request for an errand makes the server do the errand;
* `Errand.read_answer`: what the client reads off an answer is what has been answered;
* `Errand.transparent`: a round trip of request and response is a call of the service.
-/

namespace TaskBoard

open Http Json Text

/-! ## Errands -/

/-- What a client can be asked to do with one task. -/
inductive Errand where
  | get (id : String)
  | create (r : CreateRequest)
  | update (id : String) (r : UpdateRequest)
  | delete (id : String)

namespace Errand

/-- What is asked for. -/
abbrev Value : Errand → Type
  | delete _ => Unit
  | _ => Task

/-- The client's request. -/
def call (client : Client) : Errand → Client.Call
  | get id => client.get id
  | create r => client.create r
  | update id r => client.update id r
  | delete id => client.delete id

/-- What the client reads off the response. -/
def read : (e : Errand) → Response → Except ClientError e.Value
  | get _ => Client.readGet
  | create _ => Client.readCreate
  | update _ _ => Client.readUpdate
  | delete _ => Client.readDelete

/-- The call of the service. -/
def operation (caching : Option Caching) :
    (e : Errand) → Operation (Except TaskError e.Value)
  | get id => Service.get caching id
  | create r => Service.create caching r.toDraft
  | update id r => Service.update caching (r.toPatch id)
  | delete id => Service.delete caching id

/-- The id of an errand, if it has one, can be a segment of its own. -/
def Plain : Errand → Prop
  | get id | update id _ | delete id => Client.PlainId id
  | create _ => True

/-- The answer of the server when all is well. -/
def good : (e : Errand) → e.Value → Response
  | get _ => fun t => withJson 200 t.toJson
  | create _ => fun t => withJson 201 t.toJson
  | update _ _ => fun t => withJson 200 t.toJson
  | delete _ => fun _ => Http.bare 204

end Errand

/-! ## Requests -/

namespace Http

/-- A request for a target with usable headers comes in. -/
theorem ofRequest?_toRequest {call : Client.Call} {target : Target}
    (hread : Target.read call.url.text = some target)
    (hheaders : call.headers = [] ∨ call.headers = [("content-type", "application/json")]) :
    Incoming.ofRequest? call.toRequest
      = some ⟨call.method.name, target, call.headers, call.toRequest.body⟩ := by
  have hmethod : isName call.method.name = true := by
    cases call.method <;> decide
  have husable : (call.headers.all fun h => isName h.1 && isHeaderValue h.2) = true := by
    rcases hheaders with hnone | hjson
    · rw [hnone]
      rfl
    · rw [hjson]
      decide
  simp only [Incoming.ofRequest?, Client.Call.toRequest, hread, hmethod, husable, Bool.and_self,
    if_true]

/-- A JSON body that is not too long is read as what it was written for. -/
theorem readBody_withBody {α : Type} {read : Reader α} {method : Client.Method} {url : Net.Url}
    {json : List Char} {a : α} (hdecode : read.decode (json.map .char) = .ok a)
    (hsize : (Client.withBody method url json).toRequest.body.length ≤ maxBodyLength) :
    readBody read (Client.withBody method url json).headers
      (Client.withBody method url json).toRequest.body = .ok a := by
  have hbody : (Client.withBody method url json).toRequest.body = utf8Encode json := by
    simp [Client.withBody, Client.Call.toRequest]
  have hheaders : (Client.withBody method url json).headers
      = [("content-type", "application/json")] := rfl
  have hjson : (Headers.get? [("content-type", "application/json")] "content-type").any
      MediaType.isJson = true := by decide
  rw [hbody] at hsize ⊢
  have hsmall : ¬ maxBodyLength < (utf8Encode json).length := Nat.not_lt.2 hsize
  rw [hheaders, readBody, hjson, if_neg hsmall, utf8Decode_utf8Encode, hdecode]
  rfl

theorem withId_eq {segment : List Char} {id : String} (h : Route.decodeId segment = some id)
    (act : String → Activity Response) : withId segment act = act id := by
  rw [withId, h]

theorem withValue_ok {α : Type} {value : Except Fault α} {a : α} (h : value = .ok a)
    (act : α → Activity Response) : withValue value act = act a := by
  rw [h]
  rfl

/-! ### Methods of routes -/

section Methods

variable (caching : Option Caching) (tally : Metrics.Tally) (gauge : Int64) (target : Target)
  (segment : List Char) (headers : Headers) (body : List UInt8)

theorem activity_get : activity caching tally gauge (some (.task segment))
    ⟨"GET", target, headers, body⟩ = getTask caching segment := by
  have hread : isRead "GET" = true := by decide
  simp only [activity, hread, if_true]

theorem activity_post : activity caching tally gauge (some .tasks)
    ⟨"POST", target, headers, body⟩ = createTask caching headers body := by
  have hread : isRead "POST" = false := by decide
  simp only [activity, hread, Bool.false_eq_true, if_false, if_true]

theorem activity_put : activity caching tally gauge (some (.task segment))
    ⟨"PUT", target, headers, body⟩ = updateTask caching segment headers body := by
  have hread : isRead "PUT" = false := by decide
  simp only [activity, hread, Bool.false_eq_true, if_false, if_true]

theorem activity_delete : activity caching tally gauge (some (.task segment))
    ⟨"DELETE", target, headers, body⟩ = deleteTask caching segment := by
  have hread : isRead "DELETE" = false := by decide
  have hput : ¬ "DELETE" = "PUT" := by decide
  simp only [activity, hread, hput, Bool.false_eq_true, if_false, if_true]

end Methods

end Http

namespace Errand

variable {client : Client}

/-- The request for an errand makes the server do the errand and nothing else. -/
theorem activity_call (h : client.AtOrigin) (e : Errand) (hplain : e.Plain)
    (hurl : (e.call client).url.text.utf8ByteSize ≤ Target.maxLength)
    (hbody : (e.call client).toRequest.body.length ≤ maxBodyLength) :
    ∃ incoming, Incoming.ofRequest? (e.call client).toRequest = some incoming
      ∧ incoming.method = (e.call client).method.name
      ∧ ∀ caching tally gauge,
        activity caching tally gauge (Route.ofPath incoming.target.path) incoming
          = .single ((e.operation caching).map (answer e.good)) := by
  cases e with
  | get id =>
    obtain ⟨path, hread, hroute, hdecode⟩ := Client.target_task h hplain hurl
    refine ⟨_, ofRequest?_toRequest hread (Or.inl rfl), rfl, fun caching tally gauge => ?_⟩
    rw [hroute]
    exact (activity_get ..).trans (withId_eq hdecode _)
  | create r =>
    obtain ⟨path, hread, hroute⟩ := Client.target_tasks h hurl
    refine ⟨_, ofRequest?_toRequest hread (Or.inr rfl), rfl, fun caching tally gauge => ?_⟩
    rw [hroute]
    exact (activity_post ..).trans (withValue_ok (readBody_withBody r.decode_toJson hbody) _)
  | update id r =>
    obtain ⟨path, hread, hroute, hdecode⟩ := Client.target_task h hplain hurl
    refine ⟨_, ofRequest?_toRequest hread (Or.inr rfl), rfl, fun caching tally gauge => ?_⟩
    rw [hroute]
    exact ((activity_put ..).trans (withId_eq hdecode _)).trans
      (withValue_ok (readBody_withBody r.decode_toJson hbody) _)
  | delete id =>
    obtain ⟨path, hread, hroute, hdecode⟩ := Client.target_task h hplain hurl
    refine ⟨_, ofRequest?_toRequest hread (Or.inl rfl), rfl, fun caching tally gauge => ?_⟩
    rw [hroute]
    exact (activity_delete ..).trans (withId_eq hdecode _)

end Errand

/-! ## Responses -/

/-- What becomes of an error of the service on its way to a client. -/
def ClientError.ofTaskError : TaskError → ClientError
  | .notFound _ => .notFound
  | .invalidInput reason => .badRequest reason
  | .persistence _ =>
    .http 500 (String.ofList (writeObject [("error", writeString "internal server error")]))

namespace Client

/-- The message of an error is found in its body. -/
theorem errorMessage_written (message : String) :
    errorMessage (String.ofList (writeObject [("error", writeString message)])) = message := by
  have hmember : ∀ m ∈ [("error", writeString message, [Token.string (some message.toList)])],
      Lexes m.2.1 m.2.2 := by
    simpa using lexes_writeString message
  have hlex : Lexes (writeObject [("error", writeString message)])
      (objectTokens [("error", [.string (some message.toList)])]) :=
    lexes_writeObject fun m hm => (hmember m hm).before
  have hread : Reads Value.reader (objectTokens [("error", [.string (some message.toList)])])
      (.object [("error", .string message)]) := by
    intro ts
    simp [Value.reader, objectTokens, commaTokens, Json.memberTokens, Value.build, Value.ofToken?,
      Value.maxDepth]
  rw [errorMessage, String.toList_ofList, Value.parse?, hread.decode_eq hlex]
  rfl

/-- What a client makes of the answer to an error. -/
theorem checkStatus_error {expected : Nat} (h400 : expected ≠ 400) (h404 : expected ≠ 404)
    (h500 : expected ≠ 500) (e : TaskError) :
    checkStatus (shared (Fault.ofTaskError e).toResponse) expected
      = .error (ClientError.ofTaskError e) := by
  cases e with
  | invalidInput reason =>
    have hstatus : (shared (Fault.ofTaskError (.invalidInput reason)).toResponse).status = 400 :=
      rfl
    have hbody : (shared (Fault.ofTaskError (.invalidInput reason)).toResponse).body
        = String.ofList (writeObject [("error", writeString reason)]) := rfl
    simp [checkStatus, hstatus, hbody, h400.symm, errorMessage_written, ClientError.ofTaskError]
  | notFound id =>
    have hstatus : (shared (Fault.ofTaskError (.notFound id)).toResponse).status = 404 := rfl
    simp [checkStatus, hstatus, h404.symm, ClientError.ofTaskError]
  | persistence detail =>
    have hstatus : (shared (Fault.ofTaskError (.persistence detail)).toResponse).status = 500 := rfl
    have hbody : (shared (Fault.ofTaskError (.persistence detail)).toResponse).body
        = String.ofList (writeObject [("error", writeString "internal server error")]) := rfl
    simp [checkStatus, hstatus, hbody, h500.symm, ClientError.ofTaskError]

/-- A client reads the task that has been answered, or the error. -/
theorem readResponse_task {expected : Nat} (h400 : expected ≠ 400) (h404 : expected ≠ 404)
    (h500 : expected ≠ 500) (result : Except TaskError Task) :
    readResponse Task.reader expected
        (shared (answer (fun t : Task => withJson expected t.toJson) result))
      = result.mapError ClientError.ofTaskError := by
  cases result with
  | ok t =>
    have hstatus : checkStatus (shared (withJson expected t.toJson)) expected = .ok () :=
      if_pos rfl
    have hbody : (shared (withJson expected t.toJson)).body.toList = t.toJson :=
      String.toList_ofList
    have hdecode : Task.reader.decode (t.toJson.map .char) = .ok t :=
      (Task.reads_task t).decode_eq t.lexes_toJson
    rw [answer, readResponse, hstatus, readBody, hbody, hdecode]
    rfl
  | error e =>
    rw [answer, readResponse, checkStatus_error h400 h404 h500]
    rfl

end Client

namespace Errand

/-- What the client reads off an answer is what has been answered. -/
theorem read_answer (e : Errand) (result : Except TaskError e.Value) :
    e.read (shared (answer e.good result)) = result.mapError ClientError.ofTaskError := by
  cases e with
  | get id => exact Client.readResponse_task (by decide) (by decide) (by decide) result
  | create r => exact Client.readResponse_task (by decide) (by decide) (by decide) result
  | update id r => exact Client.readResponse_task (by decide) (by decide) (by decide) result
  | delete id =>
    cases result with
    | ok done => rfl
    | error e => exact Client.checkStatus_error (by decide) (by decide) (by decide) e

end Errand

/-! ## The round trip -/

open Run

/-- A request is answered with the value of its activity, and the world is as the activity leaves
it. -/
theorem Http.serve_activity {server : Server} {s : State} {r : Incoming} {a : Activity Response}
    (hmethod : r.method ≠ "OPTIONS") (hhead : r.method ≠ "HEAD")
    (hactivity : activity server.caching s.tally s.world.gauge (Route.ofPath r.target.path) r = a)
    (c : Conditions) :
    let ran := runActivity c (some (s.world.timer + server.requestTimeout)) a s.world
    (server.serve c r s).1 = shared (ran.1.getD (bare 408))
      ∧ (server.serve c r s).2.world = ran.2 := by
  simp only [Server.serve, if_neg hmethod, hactivity, if_neg hhead]
  exact ⟨trivial, trivial⟩

/-- An activity of one operation that ends before the deadline is answered with its value, and the
world is as the operation leaves it. -/
theorem Http.serve_single {server : Server} {c : Conditions} {s : State} {r : Incoming}
    {op : Operation Response} {response : Response}
    (hmethod : r.method ≠ "OPTIONS") (hhead : r.method ≠ "HEAD")
    (hactivity : activity server.caching s.tally s.world.gauge (Route.ofPath r.target.path) r
      = .single op)
    (hvalue : (run c none op s.world).1 = some response)
    (htime : (run c none op s.world).2.timer < s.world.timer + server.requestTimeout) :
    (server.serve c r s).1 = shared response
      ∧ (server.serve c r s).2.world = (run c none op s.world).2 := by
  have hserve := serve_activity hmethod hhead hactivity c
  have hrun : runActivity c (some (s.world.timer + server.requestTimeout)) (.single op) s.world
      = (some response, (run c none op s.world).2) :=
    (runActivity_before htime).trans (Prod.ext hvalue rfl)
  rw [hrun] at hserve
  exact hserve

namespace Errand

/-- If no deadline is hit, a client at the origin of a server learns from it what the service would
have answered, and the server leaves the world as the service would have left it. -/
theorem transparent {client : Client} (h : client.AtOrigin) {e : Errand} (hplain : e.Plain)
    (hurl : (e.call client).url.text.utf8ByteSize ≤ Target.maxLength)
    (hbody : (e.call client).toRequest.body.length ≤ maxBodyLength) {server : Server}
    {c : Conditions} {s : State}
    (htime : (run c none (e.operation server.caching) s.world).2.timer
      < s.world.timer + server.requestTimeout) :
    ∃ incoming result, Incoming.ofRequest? (e.call client).toRequest = some incoming
      ∧ (run c none (e.operation server.caching) s.world).1 = some result
      ∧ (server.serve c incoming s).2.world
        = (run c none (e.operation server.caching) s.world).2
      ∧ e.read (server.serve c incoming s).1 = result.mapError ClientError.ofTaskError := by
  obtain ⟨incoming, hincoming, hmethod, hactivity⟩ := activity_call h e hplain hurl hbody
  obtain ⟨result, hresult⟩ := exists_run c (e.operation server.caching) s.world
  have hvalue : (run c none ((e.operation server.caching).map (answer e.good)) s.world).1
      = some (answer e.good result) := by
    rw [run_map, hresult]
    rfl
  have hworld : (run c none ((e.operation server.caching).map (answer e.good)) s.world).2
      = (run c none (e.operation server.caching) s.world).2 := by
    rw [run_map]
  have hoptions : incoming.method ≠ "OPTIONS" := by
    rw [hmethod]
    cases (e.call client).method <;> decide
  have hhead : incoming.method ≠ "HEAD" := by
    rw [hmethod]
    cases (e.call client).method <;> decide
  -- the server runs the same operation, with an answer made of its value
  rw [← hworld] at htime
  have hserve := hactivity server.caching s.tally s.world.gauge
  obtain ⟨hresponse, hsame⟩ := serve_single hoptions hhead hserve hvalue htime
  refine ⟨incoming, result, hincoming, hresult, hsame.trans hworld, ?_⟩
  rw [hresponse, read_answer]

/-- A task is renamed whose id has a slash, a space and a letter beyond ASCII in it. -/
theorem transparent_of_renamed :
    let client : Client := ⟨{ scheme := "http".toList, host := some (.name "tasks.test".toList)
                              path := .segments [[]] }, rfl⟩
    let e : Errand := .update "a/b ü" { title := some "y", description := .clear }
    let task : Task := Draft.toTask { title := "x", description := some "z" } "a/b ü"
      ({} : World).now
    let s : State := { world := { table := Keyed.empty.insert task.id task } }
    let server : Server := ⟨none, 30000⟩
    let c := Probe.conditions {}
    Client.ofText "http://tasks.test" = .ok client ∧ client.AtOrigin ∧ e.Plain
      ∧ (e.call client).url.text.utf8ByteSize ≤ Target.maxLength
      ∧ (e.call client).toRequest.body.length ≤ maxBodyLength
      ∧ (run c none (e.operation server.caching) s.world).2.timer
        < s.world.timer + server.requestTimeout
      ∧ ∃ incoming result, Incoming.ofRequest? (e.call client).toRequest = some incoming
        ∧ (run c none (e.operation server.caching) s.world).1 = some result
        ∧ (server.serve c incoming s).2.world
          = (run c none (e.operation server.caching) s.world).2
        ∧ e.read (server.serve c incoming s).1 = result.mapError ClientError.ofTaskError := by
  intro client e task s server c
  have horigin : client.AtOrigin :=
    ⟨Or.inl rfl, ⟨_, rfl, by decide, by decide⟩, rfl, rfl⟩
  have hinside : ("a/b ü".toList.all fun c => c != '\t' && c != '\n' && c != '\r') = true := by
    decide
  have hplain : e.Plain := ⟨by decide, by decide, by decide, fun c hc => by
    simpa [and_assoc] using List.all_eq_true.1 hinside c hc⟩
  have hurl : (e.call client).url.text.utf8ByteSize ≤ Target.maxLength := by decide +kernel
  have hbody : (e.call client).toRequest.body.length ≤ maxBodyLength := by decide +kernel
  have htime : (run c none (e.operation server.caching) s.world).2.timer
      < s.world.timer + server.requestTimeout := by decide +kernel
  exact ⟨rfl, horigin, hplain, hurl, hbody, htime, transparent horigin hplain hurl hbody htime⟩

end Errand

end TaskBoard
