import Mathlib.Data.List.Forall2
import TaskBoard.Proofs.Http.Transparent
import TaskBoard.Proofs.Metrics.Lines

/-!
# Every request is counted

Every request but those for options is counted once, whatever becomes of it: by its method, by the
template that its path fits, and by the status of its answer. So the counters are known from the
requests and their answers alone, and the metrics text tells those of the requests before it.

* `labelled_iff`: the label of a path is the template that it fits;
* `counts_serve`, `counts_serveAll`: what one request adds to the counters, and what many do;
* `serve_metrics`: the answer to a request for the metrics;
* `requests_counted`: the counters after any requests, and as the metrics text shows them.
-/

namespace TaskBoard.Http

open Metrics Run Text

/-! ## Templates -/

/-- The parts of a path. -/
def partsOf (path : List Char) : List String := (splitAtAll (· == '/') path).map String.ofList

/-- The templates of the routes. -/
def templates : List String :=
  ["/api/v1/tasks", "/api/v1/tasks/\x7bid\x7d", "/health", "/metrics"]

/-- What a part of a template stands for: the parameter for any text that is not empty, and any
other part for itself. -/
def StandsFor (part text : String) : Prop := if part = "\x7bid\x7d" then text ≠ "" else text = part

/-- The path is made after the template. -/
def Fits (template : String) (path : List Char) : Prop :=
  List.Forall₂ StandsFor (partsOf template.toList) (partsOf path)

/-- The label of a path: the template that it fits, or that of paths that fit none. -/
def Labelled (path : List Char) (label : String) : Prop :=
  label ∈ templates ∧ Fits label path
    ∨ label = "unmatched" ∧ ∀ template ∈ templates, ¬ Fits template path

variable {path : List Char} {label template : String}

theorem forall₂_standsFor {parts texts : List String} (h : ∀ part ∈ parts, part ≠ "\x7bid\x7d") :
    List.Forall₂ StandsFor parts texts ↔ texts = parts := by
  induction parts generalizing texts with
  | nil => simp
  | cons part parts ih =>
    have hpart : ∀ text, StandsFor part text ↔ text = part := by
      intro text
      rw [StandsFor, if_neg (h part List.mem_cons_self)]
    have hparts := fun rest => @ih rest fun other hother => h other (List.mem_cons_of_mem _ hother)
    cases texts with
    | nil => simp
    | cons text texts => simp [hpart, hparts]

/-- A template without a parameter fits the paths that have its parts. -/
theorem fits_plain {parts : List String} (htemplate : partsOf template.toList = parts)
    (hplain : ∀ part ∈ parts, part ≠ "\x7bid\x7d") :
    Fits template path ↔ partsOf path = parts := by
  rw [Fits, htemplate]
  exact forall₂_standsFor hplain

theorem fits_tasks : Fits "/api/v1/tasks" path ↔ partsOf path = ["", "api", "v1", "tasks"] :=
  fits_plain (by decide) (by decide)

theorem fits_health : Fits "/health" path ↔ partsOf path = ["", "health"] :=
  fits_plain (by decide) (by decide)

theorem fits_metrics : Fits "/metrics" path ↔ partsOf path = ["", "metrics"] :=
  fits_plain (by decide) (by decide)

theorem fits_task : Fits "/api/v1/tasks/\x7bid\x7d" path
    ↔ ∃ segment, segment ≠ "" ∧ partsOf path = ["", "api", "v1", "tasks", segment] := by
  have hparts : partsOf "/api/v1/tasks/\x7bid\x7d".toList
      = ["", "api", "v1", "tasks", "\x7bid\x7d"] := by decide
  rw [Fits, hparts]
  simp [List.forall₂_cons_left_iff, StandsFor]

theorem ofPath_of_fits (ht : template ∈ templates) (h : Fits template path) :
    ∃ route, Route.ofPath path = some route ∧ route.template = template := by
  simp only [templates, List.mem_cons, List.not_mem_nil, or_false] at ht
  unfold Route.ofPath
  rcases ht with rfl | rfl | rfl | rfl
  · have hparts := fits_tasks.1 h
    unfold partsOf at hparts
    rw [hparts]
    exact ⟨.tasks, rfl, rfl⟩
  · obtain ⟨segment, hsegment, hparts⟩ := fits_task.1 h
    unfold partsOf at hparts
    have hempty : segment.isEmpty = false := by simpa using hsegment
    rw [hparts]
    exact ⟨.task segment.toList, by simp [hempty], rfl⟩
  · have hparts := fits_health.1 h
    unfold partsOf at hparts
    rw [hparts]
    exact ⟨.health, rfl, rfl⟩
  · have hparts := fits_metrics.1 h
    unfold partsOf at hparts
    rw [hparts]
    exact ⟨.metrics, rfl, rfl⟩

theorem fits_of_ofPath {route : Route} (h : Route.ofPath path = some route) :
    route.template ∈ templates ∧ Fits route.template path := by
  unfold Route.ofPath at h
  split at h
  · rename_i hparts
    cases h
    exact ⟨by decide, fits_health.2 hparts⟩
  · rename_i hparts
    cases h
    exact ⟨by decide, fits_metrics.2 hparts⟩
  · rename_i hparts
    cases h
    exact ⟨by decide, fits_tasks.2 hparts⟩
  · rename_i segment hparts
    split at h
    · cases h
    · rename_i hempty
      cases h
      have hsegment : segment ≠ "" := by simpa using hempty
      have ht : "/api/v1/tasks/\x7bid\x7d" ∈ templates := by decide
      exact ⟨ht, fits_task.2 ⟨segment, hsegment, hparts⟩⟩
  · cases h

/-- Requests are counted under the template that their path fits. -/
theorem labelled_iff : Labelled path label ↔ Route.label (Route.ofPath path) = label := by
  constructor
  · rintro (⟨ht, hfits⟩ | ⟨rfl, hnone⟩)
    · obtain ⟨route, hroute, rfl⟩ := ofPath_of_fits ht hfits
      rw [hroute]
      rfl
    · cases hroute : Route.ofPath path with
      | none => rfl
      | some route =>
        obtain ⟨ht, hfits⟩ := fits_of_ofPath hroute
        exact absurd hfits (hnone _ ht)
  · rintro rfl
    cases hroute : Route.ofPath path with
    | none =>
      refine Or.inr ⟨rfl, fun template ht hfits => ?_⟩
      obtain ⟨route, hsome, -⟩ := ofPath_of_fits ht hfits
      rw [hroute] at hsome
      cases hsome
    | some route => exact Or.inl (fits_of_ofPath hroute)

instance (path : List Char) (label : String) : Decidable (Labelled path label) :=
  decidable_of_iff _ labelled_iff.symm

/-! ## Requests one after another -/

/-- A request as it comes: how the calls go that it makes, and what the clocks have come to. -/
structure Arrival where
  conditions : Conditions
  request : Incoming
  /-- The milliseconds since the answer before. -/
  pause : Nat
  wall : Int

/-- The answer to a request and the state after it. -/
def Server.receive (server : Server) (a : Arrival) (s : State) : Response × State :=
  server.serve a.conditions a.request
    { s with world := { s.world with timer := s.world.timer + a.pause, wall := a.wall } }

/-- A request and its answer. -/
structure Exchanged where
  request : Incoming
  response : Response

/-- The answers to requests that come one after another, and the state after them. -/
def Server.receiveAll (server : Server) : List Arrival → State → List Exchanged × State
  | [], s => ([], s)
  | a :: rest, s =>
    let (response, s) := server.receive a s
    let (log, s) := server.receiveAll rest s
    (⟨a.request, response⟩ :: log, s)

/-- Whether a request is one of those that are counted under a key. -/
def Exchanged.CountsFor (e : Exchanged) (key : CounterKey) : Prop :=
  e.request.method ≠ "OPTIONS" ∧ e.request.method = key.labels.method
    ∧ Labelled e.request.target.path key.labels.path ∧ e.response.status = key.status

instance (e : Exchanged) (key : CounterKey) : Decidable (e.CountsFor key) :=
  inferInstanceAs (Decidable (_ ∧ _ ∧ _ ∧ _))

/-- How many of the requests are counted under a key. -/
def countOf (log : List Exchanged) (key : CounterKey) : Nat :=
  log.countP fun e => e.CountsFor key

/-- The labels that there are. -/
def KnownLabel (label : String) : Prop := label ∈ templates ∨ label = "unmatched"

variable {server : Server} {s : State} {count : CounterKey → Nat} {a : Arrival}

theorem receiveAll_cons (server : Server) (a : Arrival) (rest : List Arrival) (s : State) :
    server.receiveAll (a :: rest) s
      = (⟨a.request, (server.receive a s).1⟩ :: (server.receiveAll rest (server.receive a s).2).1,
        (server.receiveAll rest (server.receive a s).2).2) := rfl

/-! ## Counting -/

theorem knownLabel_label (path : List Char) : KnownLabel (Route.label (Route.ofPath path)) :=
  (labelled_iff.2 rfl).imp And.left And.left

/-- What a request does to the tally. -/
theorem receive_tally (server : Server) (a : Arrival) (s : State) :
    (server.receive a s).2.tally = if a.request.method = "OPTIONS" then s.tally else
      s.tally.observe a.request.method (Route.label (Route.ofPath a.request.target.path))
        (server.receive a s).1.status 0 := by
  unfold Server.receive
  by_cases hoptions : a.request.method = "OPTIONS"
  · simp only [Server.serve, if_pos hoptions]
  · simp only [Server.serve, if_neg hoptions]
    rfl

/-- A request is counted under one key. -/
theorem countsFor_iff {e : Exchanged} (h : e.request.method ≠ "OPTIONS") (key : CounterKey) :
    e.CountsFor key ↔ key = ⟨⟨e.request.method,
      Route.label (Route.ofPath e.request.target.path)⟩, e.response.status⟩ := by
  obtain ⟨⟨method, path⟩, status⟩ := key
  rw [Exchanged.CountsFor, labelled_iff]
  constructor
  · rintro ⟨-, rfl, rfl, rfl⟩
    rfl
  · intro hkey
    cases hkey
    exact ⟨h, rfl, rfl, rfl⟩

theorem counts_receive (h : s.tally.Counts count) (server : Server) (a : Arrival) :
    (server.receive a s).2.tally.Counts fun key => count key
      + if (Exchanged.mk a.request (server.receive a s).1).CountsFor key then 1 else 0 := by
  rw [receive_tally]
  by_cases hoptions : a.request.method = "OPTIONS"
  · have hnot : ∀ key, ¬ (Exchanged.mk a.request (server.receive a s).1).CountsFor key :=
      fun key hkey => hkey.1 hoptions
    simpa only [if_pos hoptions, if_neg (hnot _), Nat.add_zero] using h
  · simp only [if_neg hoptions, countsFor_iff (e := ⟨a.request, _⟩) hoptions]
    exact h.observe a.request.method _ _ 0

/-- Requests one after another are all counted. -/
theorem counts_receiveAll (h : s.tally.Counts count) (arrivals : List Arrival) :
    (server.receiveAll arrivals s).2.tally.Counts fun key =>
      count key + countOf (server.receiveAll arrivals s).1 key := by
  -- the count so far is generalized, since each request adds to it
  induction arrivals generalizing s count with
  | nil => exact h
  | cons a rest ih =>
    have hrest := ih (counts_receive h server a)
    simp only [receiveAll_cons, countOf, List.countP_cons, decide_eq_true_eq]
    simpa only [countOf, Nat.add_assoc, Nat.add_comm] using hrest

/-- No request brings a label that is not known. -/
theorem under_receiveAll (h : s.tally.Under KnownLabel) (arrivals : List Arrival) :
    (server.receiveAll arrivals s).2.tally.Under KnownLabel := by
  induction arrivals generalizing s with
  | nil => exact h
  | cons a rest ih =>
    rw [receiveAll_cons]
    refine ih ?_
    rw [receive_tally]
    split
    · exact h
    · exact h.observe (knownLabel_label _)

/-! ## The metrics text -/

/-- An answer that takes no call is cut off only if there is no time at all. -/
theorem runActivity_only (c : Conditions) (limit : Nat) (r : Response) (w : World) :
    (runActivity c (some (w.timer + limit)) (only r) w).1 = if limit = 0 then none else some r := by
  unfold runActivity
  by_cases hzero : limit = 0
  · simp [hzero]
  · have hlate : ¬ w.timer + limit ≤ w.timer := by omega
    simp [hzero, hlate, only, run]

/-- A request for the metrics is answered with the text of all that has been counted. -/
theorem serve_metrics {r : Incoming} (hmethod : r.method = "GET")
    (hpath : r.target.path = "/metrics".toList) (server : Server) (c : Conditions) (s : State) :
    (server.serve c r s).1 = shared (if server.requestTimeout = 0 then bare 408
      else metricsResponse (s.tally.render s.world.gauge)) := by
  have hread : isRead "GET" = true := by decide
  have hroute : Route.ofPath "/metrics".toList = some .metrics := by decide
  have hactivity : activity server.caching s.tally s.world.gauge (Route.ofPath r.target.path) r
      = only (metricsResponse (s.tally.render s.world.gauge)) := by
    simp only [activity, hpath, hroute, hmethod, hread, if_true]
  have hoptions : r.method ≠ "OPTIONS" := by
    rw [hmethod]
    decide
  have hhead : r.method ≠ "HEAD" := by
    rw [hmethod]
    decide
  rw [(serve_activity hoptions hhead hactivity c).1, runActivity_only]
  split <;> rfl

/-- A request among others finds the state that those before it have left. -/
theorem receiveAll_split {arrivals : List Arrival} {before after : List Exchanged} {e : Exchanged}
    (h : (server.receiveAll arrivals s).1 = before ++ e :: after) :
    ∃ (earlier : List Arrival) (a : Arrival), (server.receiveAll earlier s).1 = before
      ∧ e = ⟨a.request, (server.receive a (server.receiveAll earlier s).2).1⟩ := by
  induction before generalizing arrivals s with
  | nil =>
    cases arrivals with
    | nil => cases h
    | cons a rest =>
      rw [receiveAll_cons] at h
      obtain ⟨rfl, -⟩ := List.cons.inj h
      exact ⟨[], a, rfl, rfl⟩
  | cons first before ih =>
    cases arrivals with
    | nil => cases h
    | cons a rest =>
      rw [receiveAll_cons] at h
      obtain ⟨rfl, hrest⟩ := List.cons.inj h
      obtain ⟨earlier, b, hbefore, he⟩ := ih hrest
      refine ⟨a :: earlier, b, ?_, he⟩
      rw [receiveAll_cons, hbefore]

/-- Every request gets an answer. -/
theorem receiveAll_requests (server : Server) (arrivals : List Arrival) (s : State) :
    (server.receiveAll arrivals s).1.map Exchanged.request = arrivals.map Arrival.request := by
  induction arrivals generalizing s with
  | nil => rfl
  | cons a rest ih => rw [receiveAll_cons, List.map_cons, List.map_cons, ih]

/-- After any requests, whatever their methods, paths and bodies are, how their calls go and whether
the deadline cuts them off, each counter is the number of requests with its method, its status and a
path with its label, and there are no labels but the templates and that of unmatched paths. A
request for the metrics is answered with a text that shows the counts of the requests before it. -/
theorem requests_counted (server : Server) (w : World) (arrivals : List Arrival) :
    let (log, s) := server.receiveAll arrivals { world := w }
    log.map Exchanged.request = arrivals.map Arrival.request
      ∧ (∀ method path status,
        s.tally.requestsTotal method path status = countOf log ⟨⟨method, path⟩, status⟩)
      ∧ s.tally.Under KnownLabel
      ∧ ∀ before e after, log = before ++ e :: after → e.request.method = "GET" →
        e.request.target.path = "/metrics".toList →
        e.response.status = (if server.requestTimeout = 0 then 408 else 200)
          ∧ (e.response.status = 200 →
            ∀ key n, Reports e.response.body key n ↔ n = countOf before key ∧ n ≠ 0) := by
  have hcounts : ∀ arrivals,
      (server.receiveAll arrivals { world := w }).2.tally.Counts
        (countOf (server.receiveAll arrivals { world := w }).1) := by
    intro arrivals
    have hempty : ({ world := w } : State).tally.Counts fun _ => 0 := Tally.counts_empty
    simpa only [Nat.zero_add] using counts_receiveAll hempty arrivals
  refine ⟨receiveAll_requests server arrivals _, (hcounts arrivals).requestsTotal_eq,
    under_receiveAll (Tally.under_empty _) arrivals, ?_⟩
  intro before e after hlog hmethod hpath
  obtain ⟨earlier, a, hbefore, rfl⟩ := receiveAll_split hlog
  have hanswer : (server.receive a (server.receiveAll earlier { world := w }).2).1 = _ :=
    serve_metrics hmethod hpath server a.conditions _
  rw [hanswer]
  by_cases hzero : server.requestTimeout = 0
  · have hstatus : (shared (bare 408)).status ≠ 200 := by decide
    rw [if_pos hzero, if_pos hzero]
    exact ⟨rfl, fun h => absurd h hstatus⟩
  · rw [if_neg hzero, if_neg hzero, ← hbefore]
    refine ⟨rfl, fun _ key n => ?_⟩
    exact reports_render.trans (hcounts earlier).mem_requests

/-- A list that is cut off by the deadline, a path that nothing is at, and the metrics. -/
theorem requests_counted_cut_off :
    let server : Server := { caching := none, requestTimeout := 100 }
    let request (path : String) : Incoming := ⟨"GET", ⟨path.toList, none⟩, [], []⟩
    let slow : Conditions := Probe.conditions { storeDelay := 200 }
    let ran := server.receiveAll [⟨slow, request "/api/v1/tasks", 0, 0⟩,
      ⟨slow, request "/nowhere/42", 5, 0⟩, ⟨slow, request "/metrics", 5, 0⟩] {}
    ran.2.tally.requestsTotal "GET" "/api/v1/tasks" 408 = 1
      ∧ ran.2.tally.requestsTotal "GET" "unmatched" 404 = 1
      ∧ ran.2.tally.requestsTotal "GET" "/nowhere/42" 404 = 0
      ∧ ∃ before e, ran.1 = before ++ [e] ∧ e.response.status = 200
        ∧ Reports e.response.body ⟨⟨"GET", "/api/v1/tasks"⟩, 408⟩ 1
        ∧ Reports e.response.body ⟨⟨"GET", "unmatched"⟩, 404⟩ 1
        ∧ ¬ Reports e.response.body ⟨⟨"GET", "/metrics"⟩, 200⟩ 1 := by
  intro server request slow ran
  obtain ⟨-, htotal, -, hmetrics⟩ := requests_counted server {}
    [⟨slow, request "/api/v1/tasks", 0, 0⟩, ⟨slow, request "/nowhere/42", 5, 0⟩,
      ⟨slow, request "/metrics", 5, 0⟩]
  have hlist := (htotal "GET" "/api/v1/tasks" 408).trans (by decide +kernel : _ = 1)
  have hnowhere := (htotal "GET" "unmatched" 404).trans (by decide +kernel : _ = 1)
  have hpath := (htotal "GET" "/nowhere/42" 404).trans (by decide +kernel : _ = 0)
  obtain ⟨hstatus, hreports⟩ := hmetrics [_, _] _ [] rfl rfl rfl
  have hreported := hreports hstatus
  refine ⟨hlist, hnowhere, hpath, [_, _], _, rfl, hstatus, ?_, ?_, ?_⟩
  · exact (hreported _ _).2 ⟨by decide +kernel, by decide⟩
  · exact (hreported _ _).2 ⟨by decide +kernel, by decide⟩
  · intro h
    have hone := ((hreported _ _).1 h).1
    revert hone
    decide +kernel

end TaskBoard.Http
