import TaskBoard.Http.Server
import TaskBoard.Proofs.Run.Account
import TaskBoard.Proofs.Text.Numeral
import TaskBoard.Run.Probe

/-!
# The task gauge behind the deadline

A create or delete counts its task after the flush of the cached lists, and the deadline of a
request can fall between the two. Then the task is stored or gone and the gauge never learns of it.

* `pays_create`, `pays_update`, `pays_delete`: what the operations of the service owe the gauge;
* `serve_settled`: an answer other than 408 leaves the gauge as far from the number of tasks as it
  was, and an answer 408 leaves the gauge;
* `gauge_eq_size_iff`: the metrics show the number of tasks after every request exactly if no
  request was answered 408 and changed that number.
-/

namespace TaskBoard

open Run

variable {caching : Option Caching}

/-! ## The service -/

/-- A call of the cached store that only reads. -/
theorem reads_perform {call : StoreCall} (hcall : call.writes = false) :
    Reads (Caching.perform caching call) := by
  have hask : Reads (Operation.ask call) := .store hcall fun reply => .done reply
  cases call with
  | create draft => cases hcall
  | update task => cases hcall
  | delete id => cases hcall
  | get id => exact hask
  | count => exact hask
  | countFiltered f => exact hask
  | list q =>
    cases caching with
    | none => exact .store rfl fun reply => .done reply
    | some g =>
      have hthrough : Reads (g.readThrough q.normalized) := by
        refine .store rfl fun reply => ?_
        cases reply with
        | error e => exact .done _
        | ok tasks => exact .cache fun _ => .done _
      refine .cache fun reply => ?_
      rcases reply with e | _ | text
      · exact hthrough
      · exact hthrough
      · simp only
        split
        · exact .done _
        · exact hthrough

namespace Service

/-- A create that has stored a task flushes the lists and then counts it. -/
theorem pays_create (draft : Draft) : Pays (fun _ => True) 0 (create caching draft) := by
  unfold create
  cases normalizeTitle draft.title with
  | error e => exact .done trivial
  | ok title =>
    refine .store fun reply => ?_
    cases reply with
    | error e => exact .done trivial
    | ok task =>
      cases caching with
      | none => exact .increment trivial
      | some g => exact .cache fun _ => .increment trivial

theorem pays_get (id : String) : Pays (fun _ => True) 0 (get caching id) := by
  have hreads : Reads (Caching.perform caching (.get id)) := reads_perform rfl
  exact hreads.pays

/-- An update counts nothing. -/
theorem pays_update (p : Patch) : Pays (fun _ => True) 0 (update caching p) := by
  unfold update
  refine .store fun loaded => ?_
  cases loaded with
  | error e => exact .done trivial
  | ok task =>
    simp only [Operation.done_bind]
    cases p.merge task with
    | error e => exact .done trivial
    | ok merged =>
      refine .store fun stored => ?_
      cases stored with
      | error e => exact .done trivial
      | ok done =>
        have hback : Pays (fun _ => True) 0 (Caching.perform caching (.get p.id)) :=
          (reads_perform rfl).pays
        cases caching with
        | none => exact hback
        | some g => exact .cache fun _ => hback

/-- A delete that has taken a task away flushes the lists and then counts it. -/
theorem pays_delete (id : String) : Pays (fun _ => True) 0 (delete caching id) := by
  unfold delete
  refine .store fun reply => ?_
  rcases reply with e | _ | _
  · exact .done trivial
  · exact .done trivial
  · cases caching with
    | none => exact .decrement trivial
    | some g => exact .cache fun _ => .decrement trivial

end Service

namespace Http

/-! ## The routes -/

/-- The operation of an activity owes the gauge nothing before and after, and all answers are
`good`. -/
def Counts {α : Type} (good : α → Prop) : Activity α → Prop
  | .single op => Pays good 0 op
  | .pair page _ combine => Reads page ∧ ∀ result, good (combine result)

/-- What is left of an activity's run is settled. -/
theorem settled_runActivity {α : Type} {good : α → Prop} {a : Activity α} (h : Counts good a)
    (c : Conditions) (deadline : Option Nat) (w : World) :
    Settled good 0 w (runActivity c deadline a w) := by
  unfold runActivity
  by_cases hpassed : deadline.any (· ≤ w.timer) = true
  · -- it is too late for anything
    rw [if_pos hpassed]
    exact ⟨rfl, by simp [World.growth], by simp [World.growth]⟩
  · rw [if_neg hpassed]
    cases a with
    | single op => exact settled_run h (by decide) w
    | pair page filter combine =>
      obtain ⟨hreads, hgood⟩ := h
      have hsame : w.SameTasks (runPage c deadline filter page .waiting .page false w).2 :=
        sameTasks_runPage hreads .waiting .page false w
      simp only
      generalize runPage c deadline filter page .waiting .page false w = ran at hsame ⊢
      obtain ⟨_ | result, w'⟩ := ran
      · refine Settled.of_sameTasks hsame ?_
        exact ⟨rfl, by simp [World.growth], by simp [World.growth]⟩
      · refine Settled.of_sameTasks hsame ?_
        exact ⟨hgood result, by simp⟩

/-! ### Bad requests

What cannot be read of a request is answered as a bad request, whatever is wrong with it. -/

/-- The only fault is that of a bad request. -/
def OnlyBad {α : Type} (value : Except Fault α) : Prop := ∀ f, value = .error f → f.status = 400

namespace OnlyBad

variable {α β : Type}

theorem ok (a : α) : OnlyBad (.ok a) := by
  intro f hf
  cases hf

theorem badRequest (message : String) :
    OnlyBad (.error (.badRequest message) : Except Fault α) := by
  intro f hf
  cases hf
  rfl

theorem bind {value : Except Fault α} {next : α → Except Fault β} (h : OnlyBad value)
    (hnext : ∀ a, OnlyBad (next a)) : OnlyBad (value >>= next) := by
  cases value with
  | ok a => exact hnext a
  | error e =>
    intro f hf
    cases hf
    exact h e rfl

end OnlyBad

theorem onlyBad_readBody {α : Type} (read : Json.Reader α) (headers : Headers)
    (body : List UInt8) : OnlyBad (readBody read headers body) := by
  unfold readBody
  split
  · exact .badRequest _
  · split
    · exact .badRequest _
    · intro f hf
      cases hread : read.decode (Text.utf8Decode body) with
      | ok a =>
        rw [hread] at hf
        cases hf
      | error e =>
        rw [hread] at hf
        cases hf
        cases e <;> rfl

theorem onlyBad_completion (value : Option String) : OnlyBad (ListParams.completion value) := by
  unfold ListParams.completion
  split
  · exact .ok _
  · exact .ok _
  · split
    · exact .ok _
    · exact .badRequest _

theorem onlyBad_add (p : ListParams) (name value : List Char) : OnlyBad (p.add name value) := by
  have honce : ∀ (old : Option String) (new : ListParams) (message : String),
      OnlyBad (if old.isSome then .error (.badRequest message) else .ok new) := by
    intro old new message
    split
    · exact .badRequest _
    · exact .ok _
  unfold ListParams.add
  split
  · exact honce _ _ _
  · exact honce _ _ _
  · exact honce _ _ _
  · exact honce _ _ _
  · exact .ok _

theorem onlyBad_ofQuery (query : Option (List Char)) : OnlyBad (ListParams.ofQuery query) := by
  have hfold : ∀ (pairs : List (List Char × List Char)) (p : ListParams),
      OnlyBad (pairs.foldlM (fun p pair => p.add pair.1 pair.2) p) := by
    intro pairs
    induction pairs with
    | nil => exact fun p => .ok p
    | cons pair pairs ih => exact fun p => (onlyBad_add p pair.1 pair.2).bind ih
  exact hfold _ _

theorem onlyBad_toQuery (p : ListParams) : OnlyBad p.toQuery :=
  (onlyBad_completion p.completed).bind fun _ => .ok _

/-! ### Answers in time -/

/-- The answer is not that of a request that has been cut off. -/
def InTime (r : Response) : Prop := r.status ≠ 408

instance (r : Response) : Decidable (InTime r) := inferInstanceAs (Decidable (r.status ≠ 408))

theorem inTime_answer {α : Type} {good : α → Response} (hgood : ∀ a, InTime (good a))
    (result : Except TaskError α) : InTime (answer good result) := by
  rcases result with e | a
  · cases e with
    | invalidInput reason => exact (by decide : (400 : Nat) ≠ 408)
    | notFound id => exact (by decide : (404 : Nat) ≠ 408)
    | persistence detail => exact (by decide : (500 : Nat) ≠ 408)
  · exact hgood a

theorem counts_only {r : Response} (h : InTime r) : Counts InTime (only r) := .done h

theorem counts_withId {segment : List Char} {act : String → Activity Response}
    (hact : ∀ id, Counts InTime (act id)) : Counts InTime (withId segment act) := by
  unfold withId
  split
  · exact hact _
  · exact counts_only (by decide)

theorem counts_withValue {α : Type} {value : Except Fault α} {act : α → Activity Response}
    (hvalue : OnlyBad value) (hact : ∀ a, Counts InTime (act a)) :
    Counts InTime (withValue value act) := by
  cases value with
  | ok a => exact hact a
  | error f =>
    -- a bad request is none that has been cut off
    have hstatus : f.status ≠ 408 := by
      rw [hvalue f rfl]
      decide
    exact counts_only hstatus

/-- An operation of the service, answered. -/
theorem counts_answered {α : Type} {good : α → Response} {op : Operation (Except TaskError α)}
    (h : Pays (fun _ => True) 0 op) (hgood : ∀ a, InTime (good a)) :
    Counts InTime (.single (op.map (answer good))) :=
  h.map fun result _ => inTime_answer hgood result

/-- Whatever a request makes the server do, the gauge is owed nothing before and after. -/
theorem counts_activity (caching : Option Caching) (tally : Metrics.Tally) (gauge : Int64)
    (route : Option Route) (r : Incoming) :
    Counts InTime (activity caching tally gauge route r) := by
  have h200 : (200 : Nat) ≠ 408 := by decide
  have h405 : (405 : Nat) ≠ 408 := by decide
  unfold activity
  split
  · -- no such path
    exact counts_only (by decide)
  · -- health
    split
    · exact counts_only h200
    · exact counts_only h405
  · -- metrics
    split
    · exact counts_only h200
    · exact counts_only h405
  · -- all tasks: a page, or a new task
    split
    · refine counts_withValue ((onlyBad_ofQuery _).bind onlyBad_toQuery) fun q => ?_
      have hpage : ∀ p, InTime (pageResponse p) := fun _ => h200
      exact ⟨reads_perform rfl, fun result => inTime_answer hpage _⟩
    · split
      · refine counts_withValue (onlyBad_readBody _ _ _) fun request => ?_
        exact counts_answered (Service.pays_create _) fun _ => (by decide : (201 : Nat) ≠ 408)
      · exact counts_only h405
  · -- one task: it is read, updated or deleted
    rename_i segment
    split
    · exact counts_withId fun id => counts_answered (Service.pays_get id) fun _ => h200
    · split
      · refine counts_withId fun id => counts_withValue (onlyBad_readBody _ _ _) fun request => ?_
        exact counts_answered (Service.pays_update _) fun _ => h200
      · split
        · refine counts_withId fun id => counts_answered (Service.pays_delete id) fun _ => ?_
          exact (by decide : (204 : Nat) ≠ 408)
        · exact counts_only h405

/-! ## Requests one after another -/

/-- An answer other than 408 leaves the gauge as far from the number of tasks as it was. An answer
408 leaves the gauge, and at most one task has been stored or deleted. -/
theorem serve_settled (server : Server) (c : Conditions) (r : Incoming) (s : State) :
    InTime (server.serve c r s).1 ∧ (server.serve c r s).2.world.drift = s.world.drift
    ∨ (server.serve c r s).1.status = 408
      ∧ (server.serve c r s).2.world.gauge = s.world.gauge
      ∧ -1 ≤ s.world.growth (server.serve c r s).2.world
      ∧ s.world.growth (server.serve c r s).2.world ≤ 1 := by
  by_cases hoptions : r.method = "OPTIONS"
  · -- reaches no route
    left
    simp only [Server.serve, if_pos hoptions]
    exact ⟨(by decide : (200 : Nat) ≠ 408), trivial⟩
  · have hsettled := settled_runActivity
      (counts_activity server.caching s.tally s.world.gauge (Route.ofPath r.target.path) r) c
      (some (s.world.timer + server.requestTimeout)) s.world
    have hstatus : ∀ response : Response,
        (shared (if r.method = "HEAD" then { response with body := "" } else response)).status
          = response.status := by
      intro response
      split <;> rfl
    simp only [Server.serve, if_neg hoptions, InTime, hstatus]
    generalize runActivity c _ _ s.world = ran at hsettled ⊢
    obtain ⟨_ | response, w⟩ := ran
    · -- cut off, and answered 408
      obtain ⟨hgauge, hlow, hhigh⟩ := hsettled
      exact Or.inr ⟨rfl, hgauge, by simpa using hlow, by simpa using hhigh⟩
    · obtain ⟨hgood, hdrift⟩ := hsettled
      have hzero : Int64.ofInt 0 = 0 := rfl
      rw [hzero, Int64.add_zero] at hdrift
      exact Or.inl ⟨hgood, hdrift⟩

/-- A request and what came of it. -/
structure Exchange where
  before : State
  response : Response
  after : State

/-- Requests answered one after another, each under conditions of its own and with the clocks moved
on before it. -/
inductive Session (server : Server) (s₀ : State) : List Exchange → State → Prop where
  | nil : Session server s₀ [] s₀
  | snoc {log : List Exchange} {s : State} (h : Session server s₀ log s) (c : Conditions)
      (r : Incoming) {timer : Nat} (htimer : s.world.timer ≤ timer) (wall : Int) :
      Session server s₀
        (log ++ [{
          before := { s with world := { s.world with timer, wall } }
          response := (server.serve c r { s with world := { s.world with timer, wall } }).1
          after := (server.serve c r { s with world := { s.world with timer, wall } }).2 }])
        (server.serve c r { s with world := { s.world with timer, wall } }).2

/-- The gauge is the number of stored tasks, as a number of 64 bits. -/
def State.Exact (s : State) : Prop := s.world.gauge = Int64.ofNat s.world.table.size

theorem State.exact_iff {s : State} : s.Exact ↔ s.world.drift = 0 := by
  unfold State.Exact World.drift
  constructor
  · intro h
    rw [h]
    grind
  · intro h
    grind

/-- The last line of the metrics text, which is the one about the gauge. -/
def State.gaugeLine (s : State) : Option (List Char) := (s.tally.lines s.world.gauge).getLast?

/-- The line that shows `n` tasks. -/
def countLine (n : Int64) : List Char := "tasks_count".toList ++ ' ' :: Text.intDigits n.toInt

theorem State.gaugeLine_eq (s : State) : s.gaugeLine = some (countLine s.world.gauge) := by
  have hline : ∀ n : Int64,
      (⟨"tasks_count", [], Text.intDigits n.toInt⟩ : Metrics.Sample).line = countLine n := by
    intro n
    rw [Metrics.Sample.line, List.isEmpty_nil, if_pos rfl, List.append_nil]
    rfl
  rw [← hline]
  exact List.getLast?_concat

theorem countLine_inj {m n : Int64} (h : countLine m = countLine n) : m = n := by
  have hdigits := List.append_cancel_left h
  exact Int64.toInt_inj.1 (Text.intDigits_inj (List.cons.inj hdigits).2)

/-- The metrics show the number of tasks just if the gauge is that number. -/
theorem State.gaugeLine_eq_iff {s : State} :
    s.gaugeLine = some (countLine (Int64.ofNat s.world.table.size)) ↔ s.Exact := by
  unfold State.Exact
  rw [State.gaugeLine_eq]
  constructor
  · intro h
    exact countLine_inj (Option.some.inj h)
  · intro h
    rw [h]

/-- Numbers that differ by one at most are told apart in 64 bits. -/
theorem eq_of_ofNat_eq {m n : Nat} (hlow : -1 ≤ (m : Int) - n) (hhigh : (m : Int) - n ≤ 1)
    (h : Int64.ofNat m = Int64.ofNat n) : m = n := by
  have hone : ∀ k : Nat, Int64.ofNat (k + 1) ≠ Int64.ofNat k := by
    intro k hk
    rw [Int64.ofNat_add] at hk
    have hzero : Int64.ofNat 1 = 0 := by grind
    exact absurd hzero (by decide)
  have hcases : m = n ∨ m = n + 1 ∨ n = m + 1 := by omega
  rcases hcases with heq | heq | heq
  · exact heq
  · rw [heq] at h
    exact absurd h (hone n)
  · rw [heq] at h
    exact absurd h.symm (hone m)

/-- A request keeps an exact gauge exact, unless it is answered 408 and changes the number of
tasks. -/
theorem exact_serve_iff {server : Server} {c : Conditions} {r : Incoming} {s : State}
    (h : s.Exact) : (server.serve c r s).2.Exact
      ↔ ((server.serve c r s).1.status = 408 →
        (server.serve c r s).2.world.table.size = s.world.table.size) := by
  rcases serve_settled server c r s with ⟨hintime, hdrift⟩ | ⟨hcut, hgauge, hlow, hhigh⟩
  · constructor
    · intro _ hcut
      exact absurd hcut hintime
    · intro _
      rw [State.exact_iff, hdrift]
      exact State.exact_iff.1 h
  · constructor
    · intro hexact _
      unfold State.Exact at hexact h
      rw [hgauge, h] at hexact
      exact (eq_of_ofNat_eq (by unfold World.growth at hhigh; omega)
        (by unfold World.growth at hlow; omega) hexact).symm
    · intro hsize
      unfold State.Exact
      rw [hgauge, hsize hcut]
      exact h

/-- In a session that begins without tasks and with the gauge at zero, the metrics show the number
of stored tasks after every request exactly if no request was answered 408 and changed that
number. -/
theorem gauge_eq_size_iff {server : Server} {s₀ s : State} {log : List Exchange}
    (hempty : s₀.world.table = .empty) (hzero : s₀.world.gauge = 0)
    (hsession : Session server s₀ log s) :
    (∀ x ∈ log, x.after.gaugeLine = some (countLine (Int64.ofNat x.after.world.table.size)))
    ↔ ∀ x ∈ log, x.response.status = 408 →
      x.after.world.table.size = x.before.world.table.size := by
  simp only [State.gaugeLine_eq_iff]
  -- along with it, the gauge is exact at the end if it has been all the way
  suffices hboth : ((∀ x ∈ log, x.after.Exact) ↔ ∀ x ∈ log, x.response.status = 408 →
      x.after.world.table.size = x.before.world.table.size)
      ∧ ((∀ x ∈ log, x.after.Exact) → s.Exact) from hboth.1
  induction hsession with
  | nil =>
    refine ⟨by simp, fun _ => ?_⟩
    unfold State.Exact
    rw [hempty, hzero]
    rfl
  | @snoc log s h c r timer htimer wall ih =>
    obtain ⟨hiff, hlast⟩ := ih
    rw [List.forall_mem_append, List.forall_mem_append, List.forall_mem_singleton,
      List.forall_mem_singleton, ← hiff]
    constructor
    · -- the gauge was exact before this request if it has been all the way
      refine and_congr_right fun hall => ?_
      have hbefore : State.Exact { s with world := { s.world with timer, wall } } := hlast hall
      exact exact_serve_iff hbefore
    · intro hall
      exact hall.2

/-- A request for a task with a title. -/
def createRequest : Incoming where
  method := "POST"
  target := { path := "/api/v1/tasks".toList, query := none }
  headers := [("content-type", "application/json")]
  body := Text.utf8Encode "\x7b\"title\":\"x\"\x7d".toList

/-- The deadline passes while the lists are flushed: one task is stored and none is shown. -/
theorem gauge_ne_size_of_cut_off :
    ∃ log s, Session ⟨some ⟨60000, 500⟩, 100⟩ {} log s ∧ ∃ x ∈ log, x.response.status = 408
      ∧ x.after.gaugeLine = some (countLine 0) ∧ x.after.world.table.size = 1 := by
  refine ⟨_, _, .snoc .nil (Probe.conditions { cacheDelay := 200 }) createRequest (Nat.le_refl _) 0,
    _, List.mem_append_right _ (List.mem_singleton_self _), ?_, ?_, ?_⟩
  · decide +kernel
  · decide +kernel
  · decide +kernel

/-- A session of one request that is answered in time. -/
theorem gauge_eq_size_of_created :
    ∃ log s, Session ⟨some ⟨60000, 500⟩, 1000⟩ {} log s ∧ ∀ x ∈ log,
      x.after.gaugeLine = some (countLine (Int64.ofNat x.after.world.table.size)) := by
  have hsession : Session ⟨some ⟨60000, 500⟩, 1000⟩ {} _ _ :=
    .snoc .nil (Probe.conditions { cacheDelay := 200 }) createRequest (Nat.le_refl _) 0
  refine ⟨_, _, hsession, (gauge_eq_size_iff rfl rfl hsession).2 fun x hx hcut => ?_⟩
  rw [List.mem_singleton.1 hx] at hcut
  exact absurd hcut (by decide +kernel)

end Http

end TaskBoard
