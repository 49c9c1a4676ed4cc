import TaskBoard.Proofs.Http.Gauge
import TaskBoard.Proofs.Run.Ledger
import TaskBoard.Run.Probe

/-!
# Any number of calls of the service

Each caller makes one call of the service, and all of them run side by side. A list is two callers,
one for the page and one for the total, so that anything may come between the two.

* `ServiceCall.pays_operation`: what a call owes the gauge;
* `gauge_of_calls`: the gauge is as far from the number of stored tasks as the creates and deletes
  say that have been committed and not counted yet.
-/

namespace TaskBoard

open Run

/-- A call of the service, or one side of a list. -/
inductive ServiceCall where
  | create (draft : Draft)
  | update (p : Patch)
  | delete (id : String)
  | get (id : String)
  | page (q : Query)
  | total (q : Query)

/-- What a call is answered with when all is well. -/
inductive ServiceAnswer where
  | task (t : Task)
  | deleted
  | tasks (ts : List Task)
  | total (n : Int64)

namespace ServiceCall

/-- What a caller learns. -/
abbrev Outcome : Type := Except TaskError ServiceAnswer

/-- What the service does for a call. -/
def operation (caching : Option Caching) : ServiceCall → Operation Outcome
  | create draft => (Service.create caching draft).map (·.map .task)
  | update p => (Service.update caching p).map (·.map .task)
  | delete id => (Service.delete caching id).map (·.map fun () => .deleted)
  | get id => (Service.get caching id).map (·.map .task)
  | page q => (Caching.perform caching (.list q.normalized)).map (·.map .tasks)
  | total q =>
    (Caching.perform caching (.countFiltered q.normalized.filter)).map (·.map .total)

/-- Whether a call is one side of a list, which is dropped when the other side fails. -/
def isSide : ServiceCall → Bool
  | page _ | total _ => true
  | _ => false

variable {caching : Option Caching}

/-- The two sides of a list are its page and the count beside it. -/
theorem list_eq_pair (q : Query) :
    ∃ sides combine, Service.list caching q = .pair sides q.normalized.filter combine
      ∧ (page q).operation caching = sides.map (·.map .tasks)
      ∧ (total q).operation caching
        = (Operation.ask (.countFiltered q.normalized.filter)).map (·.map .total) :=
  ⟨_, _, rfl, rfl, rfl⟩

theorem reads_side {call : ServiceCall} (h : call.isSide = true) :
    Reads (call.operation caching) := by
  cases call with
  | page q =>
    have hlist : Reads (Caching.perform caching (.list q.normalized)) := reads_perform rfl
    exact hlist.map _
  | total q =>
    have hcount : Reads (Caching.perform caching (.countFiltered q.normalized.filter)) :=
      reads_perform rfl
    exact hcount.map _
  | create draft => cases h
  | update p => cases h
  | delete id => cases h
  | get id => cases h

/-- A call pays what it owes the gauge before it ends. -/
theorem pays_operation (call : ServiceCall) :
    Pays (fun _ => True) 0 (call.operation caching) := by
  have hany : ∀ {α : Type} {f : α → Outcome} {op : Operation α}, Pays (fun _ => True) 0 op →
      Pays (fun _ => True) 0 (op.map f) := fun h => h.map fun _ _ => trivial
  cases call with
  | create draft => exact hany (Service.pays_create draft)
  | update p => exact hany (Service.pays_update p)
  | delete id => exact hany (Service.pays_delete id)
  | get id => exact hany (Service.pays_get id)
  | page q => exact (reads_side rfl).pays
  | total q => exact (reads_side rfl).pays

/-- What a call may ask of the store. -/
def MayAsk : ServiceCall → StoreCall → Prop
  | create draft, .create draft' => draft'.id = draft.id
  | update p, .get id => id = p.id
  | update _, .update _ => True
  | delete id, .delete id' => id' = id
  | get id, .get id' => id' = id
  | page _, .list _ => True
  | total _, .countFiltered _ => True
  | _, _ => False

theorem asks_operation (call : ServiceCall) : Asks call.MayAsk (call.operation none) := by
  cases call with
  | create draft =>
    refine Asks.map _ ?_
    unfold Service.create
    cases normalizeTitle draft.title with
    | error e => exact .done _
    | ok title =>
      refine .store rfl fun reply => ?_
      cases reply with
      | error e => exact .done _
      | ok task => exact .gauge (.done _)
  | update p =>
    have hget : (update p).MayAsk (.get p.id) := rfl
    refine Asks.map _ (.store hget fun loaded => ?_)
    cases loaded with
    | error e => exact .done _
    | ok task =>
      simp only [Operation.done_bind]
      cases p.merge task with
      | error e => exact .done _
      | ok merged =>
        refine .store trivial fun stored => ?_
        cases stored with
        | error e => exact .done _
        | ok done => exact .store hget fun reply => .done _
  | delete id =>
    refine Asks.map _ (.store rfl fun reply => ?_)
    rcases reply with e | _ | _
    · exact .done _
    · exact .done _
    · exact .gauge (.done _)
  | get id =>
    have hask : Asks (get id).MayAsk (.ask (.get id)) := .store rfl fun reply => .done reply
    exact hask.map _
  | page q =>
    have hlist : ∀ r : Query, Asks (page q).MayAsk (Caching.perform none (.list r)) :=
      fun r => .store trivial fun reply => .done reply
    exact (hlist q.normalized).map _
  | total q =>
    have hask : Asks (total q).MayAsk (.ask (.countFiltered q.normalized.filter)) :=
      .store trivial fun reply => .done reply
    exact hask.map _

end ServiceCall

namespace Service

variable {ι : Type} {calls : ι → ServiceCall} {caching : Option Caching} {c : Conditions}
  {w : World}

/-- What a caller learns. -/
abbrev Learns (ι : Type) : ι → Type := fun _ => ServiceCall.Outcome

/-- Each caller makes its call. -/
def making (caching : Option Caching) (calls : ι → ServiceCall) (r : ι) : Operation (Learns ι r) :=
  (calls r).operation caching

/-- No call is abandoned; only a side of a list may be dropped. -/
def noneAbandoned (calls : ι → ServiceCall) : Pool (Learns ι) → Event (Learns ι) → Prop
  | _, .drops r => (calls r).isSide = true
  | _, _ => True

variable {trace : List (Event (Learns ι))} {p : Pool (Learns ι)} [DecidableEq ι]

/-- When nobody is under way everything has been counted. -/
theorem uncounted_of_idle (honce : StartedOnce trace)
    (hrun : Runs (making caching calls) c (noneAbandoned calls) ⟨w, []⟩ trace p)
    (hidle : p.jobs = []) (change : GaugeChange) : uncounted change trace = 0 := by
  refine List.countP_eq_zero.2 fun entry hcommit => ?_
  rw [decide_eq_true_eq]
  rintro ⟨-, hcount⟩
  have hpays : ∀ r, Pays (fun _ => True) 0 (making caching calls r) :=
    fun r => (calls r).pays_operation
  rcases underWay_of_uncounted hpays honce hrun hcommit hcount with ⟨j, hj, -⟩ | hdrops
  · rw [hidle] at hj
    cases hj
  · -- who has been dropped is a side of a list, and has only read
    obtain ⟨q, hside⟩ := hrun.allowed_of_mem hdrops
    have hreads : Reads (making caching calls entry.1) := ServiceCall.reads_side hside
    have hnone := commits_of_reader hreads (courses_run honce hrun)
    have hmem : entry ∈ ofCaller entry.1 (commits trace) := by simp [ofCaller, hcommit]
    rw [hnone] at hmem
    cases hmem

/-- Whatever the order in which any number of calls come to act on the store and the gauge, the
gauge has changed by as much as the number of stored tasks, but for the creates and deletes that
have been committed and not counted yet. When nobody is under way there are none of these. -/
theorem gauge_of_calls (honce : StartedOnce trace)
    (hrun : Runs (making caching calls) c (noneAbandoned calls) ⟨w, []⟩ trace p) :
    p.world.gauge - w.gauge = Int64.ofInt ((p.world.table.size : Int) - w.table.size
        - uncounted .increment trace + uncounted .decrement trace)
      ∧ (p.jobs = [] →
        p.world.gauge - w.gauge = Int64.ofInt ((p.world.table.size : Int) - w.table.size)) := by
  have hbalance := balance_run (fun r => (calls r).pays_operation) honce hrun
  refine ⟨hbalance, fun hidle => ?_⟩
  rw [hbalance, uncounted_of_idle honce hrun hidle, uncounted_of_idle honce hrun hidle]
  simp

/-- Two deletes of the one stored task. One of them has taken it away, the other has found nothing,
and the gauge is one ahead; when both have ended it is right again. -/
theorem gauge_of_calls_racing :
    let task : Task := Draft.toTask { title := "x" } "t" ({} : World).now
    let w : World := { table := Keyed.empty.insert task.id task, gauge := 1 }
    let calls : Bool → ServiceCall := fun _ => .delete "t"
    let c := Probe.conditions {}
    ∃ (trace trace' : List (Event (Learns Bool))) (p p' : Pool (Learns Bool)),
      StartedOnce trace ∧ Runs (making none calls) c (noneAbandoned calls) ⟨w, []⟩ trace p
      ∧ p.jobs ≠ [] ∧ uncounted .decrement trace = 1
      ∧ p.world.gauge - w.gauge = Int64.ofInt ((p.world.table.size : Int) - w.table.size
        - uncounted .increment trace + uncounted .decrement trace)
      ∧ StartedOnce trace' ∧ Runs (making none calls) c (noneAbandoned calls) ⟨w, []⟩ trace' p'
      ∧ p'.jobs = [] ∧ p'.world.table.size = 0
      ∧ p'.world.gauge - w.gauge = Int64.ofInt ((p'.world.table.size : Int) - w.table.size) := by
  intro task w calls c
  have hfound : w.performStore c (.delete "t") = (.ok true, { w with table := .empty }) := rfl
  have hgone : { w with table := .empty }.performStore c (.delete "t")
      = (.ok false, { w with table := .empty }) := rfl
  have hfirst : StoreAnswers c (.delete "t") w _ _ := .performs
  rw [hfound] at hfirst
  have hsecond : StoreAnswers c (.delete "t") { w with table := .empty } _ _ := .performs
  rw [hgone] at hsecond
  have hanswers : Runs (making none calls) c (noneAbandoned calls) ⟨w, []⟩ _ _ :=
    (((Runs.single trivial (.starts w [] false)).snoc (by trivial) (.starts w _ true)).snoc
      (by trivial) (.store (l := [_]) hfirst)).snoc (by trivial) (.store (l := []) hsecond)
  have hends := ((hanswers.snoc (by trivial) (.gauge (l := [_]))).snoc (by trivial)
    (.ends (l := []))).snoc (by trivial) (.ends (l := []))
  obtain ⟨hopen, -⟩ := gauge_of_calls (by decide) hanswers
  obtain ⟨-, hidle⟩ := gauge_of_calls (by decide) hends
  exact ⟨_, _, _, _, by decide, hanswers, by simp, by decide, hopen,
    by decide, hends, rfl, rfl, hidle rfl⟩

end Service

end TaskBoard
