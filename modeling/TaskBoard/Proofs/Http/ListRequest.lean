import TaskBoard.Proofs.Http.Transparent
import TaskBoard.Proofs.Run.InTime
import TaskBoard.Proofs.Service.Failure
import TaskBoard.Proofs.Task.Formats
import TaskBoard.Proofs.Text.Form
import TaskBoard.Proofs.Text.Numeral

/-!
# List requests

The parameters of a list request are a form in the query of its URL. Those that say nothing are left
out, and come back when the server brings the query into its normal form.

* `Client.formPairs_appendPairs`: the parameters are read off the query one by one;
* `Http.ListParams.toQuery_ofClient`: they stand for the normal form of the query;
* `Client.target_list`: the URL is a target for the route of the tasks;
* `Client.transparent_list`: a round trip of request and response is a list of the service.
-/

namespace TaskBoard

open Http Net Run Text

/-! ## The query string -/

namespace Client

/-- Parameters after others. -/
theorem foldl_appendPairs {text : List Char} (h : text ≠ [])
    (pairs : List (List Char × List Char)) :
    pairs.foldl (fun query (name, value) =>
        query ++ (if query.isEmpty then [] else ['&']) ++ formPair name value) text
      = text ++ pairs.flatMap fun pair => '&' :: formPair pair.1 pair.2 := by
  induction pairs generalizing text with
  | nil => simp
  | cons pair pairs ih =>
    have hne : text ++ ['&'] ++ formPair pair.1 pair.2 ≠ [] := by simp
    have hempty : text.isEmpty = false := by simpa using h
    rw [List.foldl_cons, hempty]
    simp only [Bool.false_eq_true, if_false]
    rw [ih hne]
    simp

theorem appendPairs_cons (pair : List Char × List Char) (pairs : List (List Char × List Char)) :
    appendPairs none (pair :: pairs)
      = some (formPair pair.1 pair.2
        ++ pairs.flatMap fun pair => '&' :: formPair pair.1 pair.2) := by
  have hne : formPair pair.1 pair.2 ≠ [] := by simp [formPair]
  have hjoined : (pair :: pairs).foldl (fun query (name, value) =>
        query ++ (if query.isEmpty then [] else ['&']) ++ formPair name value) []
      = formPair pair.1 pair.2 ++ pairs.flatMap fun pair => '&' :: formPair pair.1 pair.2 :=
    foldl_appendPairs hne pairs
  simp only [appendPairs, Option.getD_none, hjoined]
  rw [if_neg (by simpa using fun h => absurd h hne)]

/-- The parameters are read off the query one by one. -/
theorem formPairs_appendPairs (pairs : List (List Char × List Char)) :
    formPairs (utf8Encode ((appendPairs none pairs).getD [])) = pairs := by
  cases pairs with
  | nil => rfl
  | cons pair pairs =>
    rw [appendPairs_cons]
    exact formPairs_joined pair pairs

/-- A form needs no further encoding in a query. -/
theorem forall_mem_appendPairs (pairs : List (List Char × List Char)) :
    ∀ c ∈ (appendPairs none pairs).getD [], Target.isQueryChar c = true ∧ c ≠ '#' := by
  have hform : ∀ c, isFormChar c = true → Target.isQueryChar c = true ∧ c ≠ '#' := by
    have hcodes : ∀ n < 0x80, isFormChar (Char.ofNat n) = true →
        Target.isQueryChar (Char.ofNat n) = true := by
      decide +kernel
    intro c hc
    obtain ⟨hascii, -, -, hmark⟩ := of_isFormChar hc
    rw [← Char.ofNat_toNat c] at hc ⊢
    exact ⟨hcodes c.toNat hascii hc, (Char.ofNat_toNat c).symm ▸ hmark⟩
  have hpair : ∀ pair : List Char × List Char, ∀ c ∈ formPair pair.1 pair.2,
      Target.isQueryChar c = true ∧ c ≠ '#' := by
    intro pair c hc
    rcases List.mem_append.1 hc with hc | hc
    · exact hform c (forall_mem_formEncode _ c hc)
    · rcases List.mem_cons.1 hc with rfl | hc
      · decide
      · exact hform c (forall_mem_formEncode _ c hc)
  cases pairs with
  | nil => simp [appendPairs]
  | cons pair pairs =>
    rw [appendPairs_cons]
    intro c hc
    rcases List.mem_append.1 hc with hc | hc
    · exact hpair pair c hc
    · obtain ⟨pair', -, hc⟩ := List.mem_flatMap.1 hc
      rcases List.mem_cons.1 hc with rfl | hc
      · decide
      · exact hpair pair' c hc

end Client

/-! ## The parameters -/

namespace Http.ListParams

/-- The numeral of a number of 64 bits is read as that number. -/
theorem number_intText (n : Int64) : number (some (intText n.toInt)) = n := by
  have hread : readSigned? (trim (intText n.toInt).toList) = some n.toInt := by
    rw [intText, String.toList_ofList, trim_intDigits, readSigned?_intDigits]
  have hlow : -9223372036854775808 ≤ n.toInt := n.le_toInt
  have hhigh : n.toInt ≤ 9223372036854775807 := by
    have := n.toInt_lt
    omega
  simp only [number, Option.bind_some, hread]
  rw [if_pos ⟨hlow, hhigh⟩, Int64.ofInt_toInt]

/-- What a client has the server read for a query. -/
def ofClient (q : Query) : ListParams where
  limit := if 0 < q.limit then some (intText q.limit.toInt) else none
  offset := if 0 < q.offset then some (intText q.offset.toInt) else none
  completed := q.filter.completed.map fun done => String.ofList (Json.writeBool done)
  assignee := q.filter.normalized.assignee

/-- Reads pairs one after another. -/
def addAll (pairs : List (List Char × List Char)) (p : ListParams) : Except Fault ListParams :=
  pairs.foldlM (fun p (name, value) => p.add name value) p

theorem addAll_append {pairs pairs' : List (List Char × List Char)} {p p' : ListParams}
    (h : addAll pairs p = .ok p') : addAll (pairs ++ pairs') p = addAll pairs' p' := by
  have happend : addAll (pairs ++ pairs') p = (addAll pairs p).bind (addAll pairs') :=
    List.foldlM_append ..
  rw [happend, h]
  rfl

/-- The four parameters of a list request, each left out if it says nothing. -/
theorem listPairs_eq (q : Query) : Client.listPairs q
    = (if 0 < q.limit then [("limit".toList, intDigits q.limit.toInt)] else [])
      ++ (if 0 < q.offset then [("offset".toList, intDigits q.offset.toInt)] else [])
      ++ (q.filter.completed.elim [] fun done => [("completed".toList, Json.writeBool done)])
      ++ q.filter.normalized.assignee.elim [] fun name => [("assignee".toList, name.toList)] := by
  unfold Client.listPairs
  cases q.filter.completed <;> cases q.filter.normalized.assignee <;> rfl

/-- The server reads the parameters that the client has written. -/
theorem ofQuery_list (q : Query) :
    ofQuery (Client.appendPairs none (Client.listPairs q)) = .ok (ofClient q) := by
  -- none of the four parameters has been read before its turn
  have hlimit : addAll (if 0 < q.limit then [("limit".toList, intDigits q.limit.toInt)] else []) {}
      = .ok { limit := (ofClient q).limit } := by
    unfold ofClient
    split <;> rfl
  have hoffset : addAll (if 0 < q.offset then [("offset".toList, intDigits q.offset.toInt)] else [])
        { limit := (ofClient q).limit }
      = .ok { limit := (ofClient q).limit, offset := (ofClient q).offset } := by
    simp only [ofClient]
    split <;> rfl
  have hcompleted : addAll
        (q.filter.completed.elim [] fun done => [("completed".toList, Json.writeBool done)])
        { limit := (ofClient q).limit, offset := (ofClient q).offset }
      = .ok ⟨(ofClient q).limit, (ofClient q).offset, (ofClient q).completed, none⟩ := by
    simp only [ofClient]
    rcases q.filter.completed with _ | done
    · rfl
    · rfl
  have hassignee : addAll
        (q.filter.normalized.assignee.elim [] fun name => [("assignee".toList, name.toList)])
        ⟨(ofClient q).limit, (ofClient q).offset, (ofClient q).completed, none⟩
      = .ok (ofClient q) := by
    simp only [ofClient]
    rcases q.filter.normalized.assignee with _ | name
    · rfl
    · simp [addAll, add]
  rw [ofQuery, Client.formPairs_appendPairs, listPairs_eq]
  have htwo := (addAll_append hlimit).trans hoffset
  have hthree := (addAll_append htwo).trans hcompleted
  exact (addAll_append hthree).trans hassignee

/-- The parameters that a client writes stand for the normal form of its query. -/
theorem toQuery_ofClient (q : Query) : (ofClient q).toQuery = .ok q.normalized := by
  have hnumber : ∀ n : Int64, number (if 0 < n then some (intText n.toInt) else none)
      = if n ≤ 0 then 0 else n := by
    intro n
    by_cases hn : 0 < n
    · rw [if_pos hn, if_neg (Int64.not_le.2 hn), number_intText]
    · rw [if_neg hn, if_pos (Int64.not_lt.1 hn)]
      rfl
  have hpositive : ∀ n : Int64, (if n ≤ 0 then 0 else n) ≤ 0 ↔ n ≤ 0 := by
    intro n
    split
    · simp_all
    · rfl
  have hcompletion : completion (q.filter.completed.map fun done =>
      String.ofList (Json.writeBool done)) = .ok q.filter.completed := by
    rcases q.filter.completed with _ | _ | _
    · rfl
    · decide
    · decide
  have hquery : Query.normalized ⟨if q.limit ≤ 0 then 0 else q.limit,
      if q.offset ≤ 0 then 0 else q.offset, q.filter.normalized⟩ = q.normalized := by
    simp only [Query.normalized, hpositive, Filter.normalized_normalized]
    by_cases hlimit : q.limit ≤ 0 <;> by_cases hoffset : q.offset ≤ 0 <;> simp [hlimit, hoffset]
  simp only [toQuery, ofClient, hcompletion, hnumber]
  exact congrArg Except.ok hquery

end Http.ListParams

namespace Client

variable {client : Client}

/-- The base has no query of its own. -/
theorem query_list (h : client.AtOrigin) (q : Query) :
    (client.list q).url.query = appendPairs none (listPairs q) := by
  have hnone : (client.url tasksPath).query = none := by
    rw [url, extend_eq h, ← h.query_eq]
  rw [list, hnone]
  rfl

/-- The URL of a list request is a target for the route of the tasks, with its query. -/
theorem target_list (h : client.AtOrigin) (q : Query)
    (hsize : (client.list q).url.text.utf8ByteSize ≤ Target.maxLength) :
    ∃ path, Target.read (client.list q).url.text = some ⟨path, (client.list q).url.query⟩
      ∧ Route.ofPath path = some .tasks := by
  have hchars : ∀ c ∈ ((client.list q).url.query).getD [],
      Target.isQueryChar c = true ∧ c ≠ '#' := by
    rw [query_list h]
    exact forall_mem_appendPairs (listPairs q)
  exact ⟨_, read_extend h foldl_tasksPath (by decide) tasksPath_chars hchars hsize,
    Route.ofPath_tasks⟩

/-- The query of the URL stands for the normal form of the query meant. -/
theorem toQuery_list (h : client.AtOrigin) (q : Query) :
    (ListParams.ofQuery (client.list q).url.query).bind ListParams.toQuery
      = .ok q.normalized := by
  rw [query_list h, ListParams.ofQuery_list]
  exact ListParams.toQuery_ofClient q

end Client

/-! ## The round trip -/

namespace Service

theorem list_normalized (caching : Option Caching) (q : Query) :
    list caching q.normalized = list caching q := by
  rw [list, list, Query.normalized_normalized]

/-- Without a deadline a list has a value. -/
theorem exists_list (caching : Option Caching) (c : Conditions) (q : Query) (w : World) :
    ∃ result, (runActivity c none (list caching q) w).1 = some result :=
  exists_of_pair (finds_list w.table q.normalized)

end Service

namespace Client

variable {client : Client}

/-- The request for a list makes the server list. -/
theorem activity_list (h : client.AtOrigin) (q : Query)
    (hsize : (client.list q).url.text.utf8ByteSize ≤ Target.maxLength) :
    ∃ incoming, Incoming.ofRequest? (client.list q).toRequest = some incoming
      ∧ incoming.method = "GET" ∧ incoming.target.query = (client.list q).url.query
      ∧ ∀ caching tally gauge,
        activity caching tally gauge (Route.ofPath incoming.target.path) incoming
          = (Service.list caching q).map (answer pageResponse) := by
  obtain ⟨path, hread, hroute⟩ := target_list h q hsize
  refine ⟨_, ofRequest?_toRequest hread (Or.inl rfl), rfl, rfl, ?_⟩
  intro caching tally gauge
  have hlist : activity caching tally gauge (some .tasks)
      ⟨"GET", ⟨path, (client.list q).url.query⟩, (client.list q).headers,
        (client.list q).toRequest.body⟩ = listTasks caching (client.list q).url.query := by
    have hget : isRead "GET" = true := by decide
    simp only [activity, hget, if_true]
  rw [hroute]
  refine hlist.trans ?_
  rw [listTasks, withValue_ok (toQuery_list h q), Service.list_normalized]

/-- A client reads the page that has been answered, or the error. -/
theorem readList_answer (result : Except TaskError Page) :
    readList (shared (answer pageResponse result)) = result.mapError ClientError.ofTaskError := by
  cases result with
  | ok p =>
    have hstatus : checkStatus (shared (pageResponse p)) 200 = .ok () := if_pos rfl
    have hbody : (shared (pageResponse p)).body.toList = p.toJson := String.toList_ofList
    have hdecode : Page.reader.decode (p.toJson.map .char) = .ok p :=
      p.reads_page.decode_eq p.lexes_toJson
    rw [answer, readList, readResponse, hstatus, readBody, hbody, hdecode]
    rfl
  | error e =>
    rw [answer, readList, readResponse, checkStatus_error (by decide) (by decide) (by decide)]
    rfl

/-- A list query survives the way from a client to the server, and its page the way back: the server
reads the query's normal form off the URL, does what a list of the service does before the deadline,
and its response is read as what the list has come to. A list that would end before the deadline
anyway comes to what it comes to without one. -/
theorem transparent_list (h : client.AtOrigin) (q : Query) :
    (ListParams.ofQuery (client.list q).url.query).bind ListParams.toQuery = .ok q.normalized
      ∧ ((client.list q).url.text.utf8ByteSize ≤ Target.maxLength →
        ∃ incoming, Incoming.ofRequest? (client.list q).toRequest = some incoming
          ∧ incoming.target.query = (client.list q).url.query
          ∧ ∀ (server : Server) (c : Conditions) (s : State),
            let deadline := s.world.timer + server.requestTimeout
            let listed := runActivity c (some deadline) (Service.list server.caching q) s.world
            let unlimited := runActivity c none (Service.list server.caching q) s.world
            (server.serve c incoming s).2.world = listed.2
              ∧ readList (server.serve c incoming s).1
                = listed.1.elim (.error (.http 408 "")) (·.mapError ClientError.ofTaskError)
              ∧ (unlimited.2.timer < deadline →
                listed = unlimited ∧ ∃ result, listed.1 = some result)) := by
  refine ⟨toQuery_list h q, ?_⟩
  intro hsize
  obtain ⟨incoming, hincoming, hmethod, hquery, hactivity⟩ := activity_list h q hsize
  refine ⟨incoming, hincoming, hquery, ?_⟩
  intro server c s deadline listed unlimited
  have hoptions : incoming.method ≠ "OPTIONS" := by
    rw [hmethod]
    decide
  have hhead : incoming.method ≠ "HEAD" := by
    rw [hmethod]
    decide
  have hserve := serve_activity hoptions hhead (hactivity server.caching s.tally s.world.gauge) c
  rw [runActivity_map] at hserve
  refine ⟨hserve.2, ?_, ?_⟩
  · rw [hserve.1]
    change readList (shared ((listed.1.map (answer pageResponse)).getD (Http.bare 408))) = _
    rcases listed.1 with _ | result
    · -- cut off
      rfl
    · exact readList_answer result
  · intro htime
    have hsame : listed = unlimited := runActivity_before htime
    rw [hsame]
    exact ⟨rfl, Service.exists_list server.caching c q s.world⟩

/-- A page of the tasks of somebody whose name has the marks of a form in it, from the greatest
offset on, with a limit that says nothing. -/
theorem transparent_list_of_marks :
    let client : Client := ⟨{ scheme := "http".toList, host := some (.name "tasks.test".toList)
                              path := .segments [[]] }, rfl⟩
    let name := "a&b= +%ü"
    let q : Query := ⟨Int64.minValue, Int64.maxValue, ⟨some false, some name⟩⟩
    let task : Task := Draft.toTask { title := "x", assignee := some name } "1" ({} : World).now
    let s : State := { world := { table := Keyed.empty.insert task.id task } }
    let server : Server := ⟨none, 30000⟩
    let c := Probe.conditions {}
    Client.ofText "http://tasks.test" = .ok client ∧ client.AtOrigin
      ∧ (client.list q).url.text = "http://tasks.test/api/v1/tasks?offset=9223372036854775807&"
        ++ "completed=false&assignee=a%26b%3D+%2B%25%C3%BC"
      ∧ (ListParams.ofQuery (client.list q).url.query).bind ListParams.toQuery
        = .ok ⟨100, Int64.maxValue, ⟨some false, some name⟩⟩
      ∧ ∃ incoming, Incoming.ofRequest? (client.list q).toRequest = some incoming
        ∧ readList (server.serve c incoming s).1 = .ok ⟨[], 100, Int64.maxValue, 1⟩ := by
  intro client name q task s server c
  have horigin : client.AtOrigin :=
    ⟨Or.inl rfl, ⟨_, rfl, by decide, by decide⟩, rfl, rfl⟩
  obtain ⟨hquery, hserves⟩ := transparent_list horigin q
  obtain ⟨incoming, hincoming, -, hserved⟩ := hserves (by decide +kernel)
  obtain ⟨-, hpage, -⟩ := hserved server c s
  have hlisted : (runActivity c (some (s.world.timer + server.requestTimeout))
      (Service.list server.caching q) s.world).1
        = some (.ok ⟨[], 100, Int64.maxValue, 1⟩) := by decide +kernel
  rw [hlisted] at hpage
  exact ⟨rfl, horigin, by decide +kernel, hquery, incoming, hincoming, hpage⟩

end Client

end TaskBoard
