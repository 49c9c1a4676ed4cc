import TaskBoard.Proofs.Run.World

/-!
# Operations side by side

A pool is a world with any number of operations under way in it. One step has one call answered,
ends or drops one operation, starts another one, or lets time pass. Which operation comes next,
how long a call waits, whether it fails and when an operation is dropped is all left open, so what
holds of every run of a pool holds of every interleaving.

* `Runs.trans`: runs can be put one after the other;
* `Runs.split`: a run can be taken apart at each of its events;
* `Runs.invariant`: what every step keeps holds all along a run;
* `exists_runs_of_run`: running one operation by itself is a run of a pool.
-/

namespace TaskBoard.Run

variable {ι : Type} {β : ι → Type}

/-! ## The pool -/

/-- An operation under way. -/
structure Job (β : ι → Type) where
  request : ι
  /-- What is left to do of the request. -/
  left : Operation (β request)
  /-- When the operation came to where it is. -/
  since : Nat

/-- When the call that an operation waits for runs out of time, if it can. -/
def Job.cutOff? (j : Job β) : Option Nat :=
  match j.left with
  | .cache limit _ _ => some (j.since + limit)
  | _ => none

/-- A world and the operations under way in it. -/
structure Pool (β : ι → Type) where
  world : World
  jobs : List (Job β)

/-- What can be seen of a step. -/
inductive Event (β : ι → Type) where
  | starts (r : ι)
  | waits (timer : Nat) (wall : Int)
  | store (r : ι) (call : StoreCall) (reply : call.Reply) (time : Nat)
  /-- A cache call is answered; `left` is what the request has left to do. -/
  | cache (r : ι) (call : CacheCall) (reply : call.Reply) (time : Nat) (left : Operation (β r))
  | gauge (r : ι) (change : GaugeChange)
  | ends (r : ι) (value : β r)
  | drops (r : ι)

/-- A store call is performed, or it fails and changes nothing. -/
inductive StoreAnswers (c : Conditions) (call : StoreCall) (w : World) :
    call.Reply → World → Prop where
  | performs : StoreAnswers c call w (w.performStore c call).1 (w.performStore c call).2
  | fails (e : TaskError) : StoreAnswers c call w (.error e) w

/-- A cache call is performed, or it fails and changes nothing. -/
inductive CacheAnswers (call : CacheCall) (w : World) : call.Reply → World → Prop where
  | performs : CacheAnswers call w (.ok (w.performCache call).1) (w.performCache call).2
  | fails (e : CacheError) : CacheAnswers call w (.error e) w

/-- One step of a pool in which the request `r` is worked on as `program r`. Time passes only up
to where a cache call runs out of it; the call fails there, or is in time. -/
inductive Step (program : (r : ι) → Operation (β r)) (c : Conditions) :
    Pool β → Event β → Pool β → Prop where
  | starts (w : World) (jobs : List (Job β)) (r : ι) :
      Step program c ⟨w, jobs⟩ (.starts r) ⟨w, ⟨r, program r, w.timer⟩ :: jobs⟩
  | waits {w : World} {jobs : List (Job β)} {timer : Nat} (wall : Int) (hforward : w.timer ≤ timer)
      (hcut : ∀ j ∈ jobs, ∀ t, j.cutOff? = some t → timer ≤ t) :
      Step program c ⟨w, jobs⟩ (.waits timer wall) ⟨{ w with timer, wall }, jobs⟩
  | store {w w' : World} {l js : List (Job β)} {r : ι} {call : StoreCall}
      {next : call.Reply → Operation (β r)} {since : Nat} {reply : call.Reply}
      (hanswer : StoreAnswers c call w reply w') :
      Step program c ⟨w, l ++ ⟨r, .store call next, since⟩ :: js⟩ (.store r call reply w.timer)
        ⟨w', l ++ ⟨r, next reply, w.timer⟩ :: js⟩
  | cache {w w' : World} {l js : List (Job β)} {r : ι} {limit : Nat} {call : CacheCall}
      {next : call.Reply → Operation (β r)} {since : Nat} {reply : call.Reply}
      (hanswer : CacheAnswers call w reply w') :
      Step program c ⟨w, l ++ ⟨r, .cache limit call next, since⟩ :: js⟩
        (.cache r call reply w.timer (next reply)) ⟨w', l ++ ⟨r, next reply, w.timer⟩ :: js⟩
  | gauge {w : World} {l js : List (Job β)} {r : ι} {change : GaugeChange}
      {next : Operation (β r)} {since : Nat} :
      Step program c ⟨w, l ++ ⟨r, .gauge change next, since⟩ :: js⟩ (.gauge r change)
        ⟨w.changeGauge change, l ++ ⟨r, next, w.timer⟩ :: js⟩
  | ends {w : World} {l js : List (Job β)} {r : ι} {value : β r} {since : Nat} :
      Step program c ⟨w, l ++ ⟨r, .done value, since⟩ :: js⟩ (.ends r value) ⟨w, l ++ js⟩
  | drops {w : World} {l js : List (Job β)} (j : Job β) :
      Step program c ⟨w, l ++ j :: js⟩ (.drops j.request) ⟨w, l ++ js⟩

/-- Steps one after the other, with what can be seen of them, of the steps that `allowed` lets
happen. -/
inductive Runs (program : (r : ι) → Operation (β r)) (c : Conditions)
    (allowed : Pool β → Event β → Prop) (p : Pool β) : List (Event β) → Pool β → Prop where
  | nil : Runs program c allowed p [] p
  | snoc {trace : List (Event β)} {q q' : Pool β} {e : Event β}
      (hrun : Runs program c allowed p trace q) (hallowed : allowed q e)
      (hstep : Step program c q e q') : Runs program c allowed p (trace ++ [e]) q'

/-- Every step may happen. -/
def anyOrder : Pool β → Event β → Prop := fun _ _ => True

variable {program : (r : ι) → Operation (β r)} {c : Conditions}
  {allowed : Pool β → Event β → Prop} {p q q' : Pool β} {trace : List (Event β)} {e : Event β}

/-! ## Runs -/

namespace Runs

/-- Runs can be put one after the other. -/
theorem trans {trace' : List (Event β)} (hrun : Runs program c allowed p trace q)
    (hrun' : Runs program c allowed q trace' q') :
    Runs program c allowed p (trace ++ trace') q' := by
  induction hrun' with
  | nil => simpa using hrun
  | snoc _ hallowed hstep ih =>
    rw [← List.append_assoc]
    exact .snoc ih hallowed hstep

theorem single (hallowed : allowed p e) (hstep : Step program c p e q) :
    Runs program c allowed p [e] q :=
  .snoc .nil hallowed hstep

/-- What holds at first and is kept by every step, whatever has been seen before, holds all along
a run. -/
theorem invariant {Inv : List (Event β) → Pool β → Prop} (hinit : Inv [] p)
    (hkeep : ∀ trace q e q', Runs program c allowed p trace q → Inv trace q → allowed q e →
      Step program c q e q' → Inv (trace ++ [e]) q')
    (hrun : Runs program c allowed p trace q) : Inv trace q := by
  induction hrun with
  | nil => exact hinit
  | snoc hrun hallowed hstep ih => exact hkeep _ _ _ _ hrun ih hallowed hstep

/-- A run can be taken apart at each of its events. -/
theorem split {trace' : List (Event β)} (hrun : Runs program c allowed p (trace ++ e :: trace') q) :
    ∃ p₁ p₂, Runs program c allowed p trace p₁ ∧ allowed p₁ e ∧ Step program c p₁ e p₂
      ∧ Runs program c allowed p₂ trace' q := by
  generalize hwhole : trace ++ e :: trace' = whole at hrun
  induction hrun generalizing trace' with
  | nil => simp at hwhole
  | @snoc before q q' e' hrun hallowed hstep ih =>
    rcases List.eq_nil_or_concat trace' with rfl | ⟨rest, last, rfl⟩
    · -- the last event
      obtain ⟨rfl, hlast⟩ := List.append_inj' hwhole rfl
      obtain rfl : e = e' := by simpa using hlast
      exact ⟨_, _, hrun, hallowed, hstep, .nil⟩
    · have hparts : (trace ++ e :: rest) ++ [last] = before ++ [e'] := by simpa using hwhole
      obtain ⟨hbefore, hlast⟩ := List.append_inj' hparts rfl
      obtain rfl : last = e' := by simpa using hlast
      obtain ⟨p₁, p₂, hfirst, hallowed', hstep', hrest⟩ := ih hbefore
      refine ⟨p₁, p₂, hfirst, hallowed', hstep', ?_⟩
      rw [List.concat_eq_append]
      exact hrest.snoc hallowed hstep

/-- Only what is allowed is seen. -/
theorem allowed_of_mem (hrun : Runs program c allowed p trace q) (he : e ∈ trace) :
    ∃ q, allowed q e := by
  obtain ⟨before, after, rfl⟩ := List.append_of_mem he
  obtain ⟨q', -, -, hallowed, -⟩ := hrun.split
  exact ⟨q', hallowed⟩

end Runs

/-! ## One step -/

/-- A store call changes neither the timer nor the cache. -/
theorem StoreAnswers.frame {call : StoreCall} {w w' : World} {reply : call.Reply}
    (h : StoreAnswers c call w reply w') : w'.timer = w.timer ∧ w'.cache = w.cache := by
  cases h with
  | performs => exact ⟨rfl, rfl⟩
  | fails e => exact ⟨rfl, rfl⟩

/-- A cache call changes neither the timer nor the stored tasks. -/
theorem CacheAnswers.frame {call : CacheCall} {w w' : World} {reply : call.Reply}
    (h : CacheAnswers call w reply w') : w'.timer = w.timer ∧ w'.table = w.table := by
  cases h with
  | performs => exact ⟨rfl, rfl⟩
  | fails e => exact ⟨rfl, rfl⟩

/-- A list that the store answers is that of the stored tasks. -/
theorem StoreAnswers.of_list {q : Query} {w w' : World} {tasks : List Task}
    (h : StoreAnswers c (.list q) w (.ok tasks) w') : tasks = w'.table.list q := by
  generalize hreply : (Except.ok tasks : (StoreCall.list q).Reply) = reply at h
  cases h with
  | performs => exact Except.ok.inj hreply
  | fails e => cases hreply

/-- An answer of the cache that is no error is what the cache held. -/
theorem CacheAnswers.of_ok {call : CacheCall} {w w' : World} {answer : call.Answer}
    (h : CacheAnswers call w (.ok answer) w') :
    (w.performCache call).1 = answer ∧ w' = (w.performCache call).2 := by
  generalize hreply : (Except.ok answer : call.Reply) = reply at h
  cases h with
  | performs => exact ⟨(Except.ok.inj hreply).symm, rfl⟩
  | fails e => cases hreply

namespace Step

/-- An operation whose cache call is answered was waiting for it. -/
theorem of_cache {r : ι} {call : CacheCall} {reply : call.Reply} {time : Nat}
    {left : Operation (β r)} (h : Step program c p (.cache r call reply time left) q) :
    ∃ limit next since, ⟨r, .cache limit call next, since⟩ ∈ p.jobs ∧ left = next reply
      ∧ time = p.world.timer ∧ CacheAnswers call p.world reply q.world := by
  cases h with
  | cache hanswer => exact ⟨_, _, _, List.mem_append_right _ List.mem_cons_self, rfl, rfl, hanswer⟩

/-- An operation whose store call is answered was waiting for it. -/
theorem of_store {r : ι} {call : StoreCall} {reply : call.Reply} {time : Nat}
    (h : Step program c p (.store r call reply time) q) :
    (∃ next since, ⟨r, .store call next, since⟩ ∈ p.jobs)
      ∧ StoreAnswers c call p.world reply q.world := by
  cases h with
  | store hanswer => exact ⟨⟨_, _, List.mem_append_right _ List.mem_cons_self⟩, hanswer⟩

/-- Only store calls change the stored tasks or generate ids. -/
theorem table_eq (h : Step program c p e q)
    (he : ∀ r call reply time, e ≠ .store r call reply time) :
    q.world.table = p.world.table ∧ q.world.ids = p.world.ids := by
  cases h with
  | store hanswer => exact absurd rfl (he _ _ _ _)
  | cache hanswer =>
    cases hanswer with
    | performs => exact ⟨rfl, rfl⟩
    | fails e => exact ⟨rfl, rfl⟩
  | starts w jobs r => exact ⟨rfl, rfl⟩
  | waits wall hforward hcut => exact ⟨rfl, rfl⟩
  | gauge => exact ⟨rfl, rfl⟩
  | ends => exact ⟨rfl, rfl⟩
  | drops j => exact ⟨rfl, rfl⟩

/-- The number of generated ids only grows. -/
theorem ids_le (h : Step program c p e q) : p.world.ids ≤ q.world.ids := by
  cases h with
  | store hanswer =>
    cases hanswer with
    | performs =>
      simp only [World.performStore]
      split <;> omega
    | fails e => exact Nat.le_refl _
  | cache hanswer =>
    cases hanswer with
    | performs => exact Nat.le_refl _
    | fails e => exact Nat.le_refl _
  | starts w jobs r => exact Nat.le_refl _
  | waits wall hforward hcut => exact Nat.le_refl _
  | gauge => exact Nat.le_refl _
  | ends => exact Nat.le_refl _
  | drops j => exact Nat.le_refl _

/-- An operation that ends had nothing left to do, and its end changes nothing. -/
theorem of_ends {r : ι} {value : β r} (h : Step program c p (.ends r value) q) :
    (∃ since, ⟨r, .done value, since⟩ ∈ p.jobs) ∧ q.world = p.world := by
  cases h with
  | ends => exact ⟨⟨_, List.mem_append_right _ List.mem_cons_self⟩, rfl⟩

end Step

theorem Runs.ids_le (hrun : Runs program c allowed p trace q) : p.world.ids ≤ q.world.ids := by
  induction hrun with
  | nil => exact Nat.le_refl _
  | snoc hrun hallowed hstep ih => exact Nat.le_trans ih hstep.ids_le

/-- A call that is waited for from now on does not run out of time before now. -/
theorem Job.le_cutOff {r : ι} {left : Operation (β r)} {timer t : Nat}
    (h : (⟨r, left, timer⟩ : Job β).cutOff? = some t) : timer ≤ t := by
  unfold Job.cutOff? at h
  split at h
  · have ht := Option.some.inj h
    simp only at ht
    omega
  · cases h

/-- What holds of all operations under way still does if one of them is another one now. -/
theorem forall_mem_replace {P Q : Job β → Prop} {l js : List (Job β)} {j j' : Job β}
    (hall : ∀ i ∈ l ++ j :: js, P i) (hkeep : ∀ i ∈ l ++ js, P i → Q i) (hnew : Q j') :
    ∀ i ∈ l ++ j' :: js, Q i := by
  intro i hi
  rcases List.mem_append.1 hi with hl | hjs
  · exact hkeep i (List.mem_append_left _ hl) (hall i (List.mem_append_left _ hl))
  · rcases List.mem_cons.1 hjs with heq | hjs
    · rw [heq]
      exact hnew
    · exact hkeep i (List.mem_append_right _ hjs)
        (hall i (List.mem_append_right _ (List.mem_cons_of_mem _ hjs)))

theorem forall_mem_remove {P : Job β → Prop} {l js : List (Job β)} {j : Job β}
    (hall : ∀ i ∈ l ++ j :: js, P i) : ∀ i ∈ l ++ js, P i := by
  intro i hi
  rcases List.mem_append.1 hi with hl | hjs
  · exact hall i (List.mem_append_left _ hl)
  · exact hall i (List.mem_append_right _ (List.mem_cons_of_mem _ hjs))

/-- No caller is under way twice. -/
theorem request_ne {l js : List (Job β)} {j : Job β}
    (h : ((l ++ j :: js).map Job.request).Nodup) : ∀ i ∈ l ++ js, i.request ≠ j.request := by
  intro i hi heq
  rw [List.map_append, List.map_cons] at h
  have hnot := (List.nodup_cons.1 (List.perm_middle.nodup_iff.1 h)).1
  rw [← List.map_append, ← heq] at hnot
  exact hnot (List.mem_map_of_mem hi)

theorem callers_remove {l js : List (Job β)} {j : Job β}
    (h : ((l ++ j :: js).map Job.request).Nodup) : ((l ++ js).map Job.request).Nodup := by
  have hsub : (l ++ js).Sublist (l ++ j :: js) := (List.Sublist.refl l).append (.cons j (.refl js))
  exact h.sublist (hsub.map Job.request)

/-! ## One operation by itself

A run of one operation makes the waits and has the answers that its conditions set. The calls that
it notes on the way are not part of a pool. -/

namespace World

/-- The world without the calls that have been noted. -/
def bare (w : World) : World := { w with storeCalls := [], cacheCalls := [] }

theorem storeAnswers_endStore (call : StoreCall) (failure : Option String) (w : World) :
    StoreAnswers c call w.bare (w.endStore c call failure).1
      (w.endStore c call failure).2.bare := by
  cases failure with
  | some detail => exact .fails (.persistence detail)
  | none => exact .performs

theorem cacheAnswers_endCache (call : CacheCall) (failure : Option CacheError) (w : World) :
    CacheAnswers call w.bare (w.endCache call failure).1 (w.endCache call failure).2.bare := by
  cases failure with
  | some e => exact .fails e
  | none => exact .performs

/-- A pause moves nothing but the timer, not past the delay and not past the deadline. -/
theorem pause_eq (deadline : Option Nat) (delay : Nat) (w : World)
    (hdeadline : ∀ d, deadline = some d → w.timer ≤ d) :
    ∃ t, (w.pause deadline delay).2 = { w with timer := t } ∧ w.timer ≤ t ∧ t ≤ w.timer + delay
      ∧ ∀ d, deadline = some d → t ≤ d := by
  unfold pause
  by_cases hzero : delay = 0
  · rw [if_pos hzero]
    exact ⟨w.timer, rfl, Nat.le_refl _, Nat.le_add_right _ _, hdeadline⟩
  · rw [if_neg hzero]
    cases deadline with
    | none => exact ⟨w.timer + delay, rfl, Nat.le_add_right _ _, Nat.le_refl _, by simp⟩
    | some d =>
      have hd := hdeadline d rfl
      unfold waitUntil
      by_cases hcut : d ≤ w.timer + delay
      · simp only [hcut, if_true]
        exact ⟨d, rfl, hd, hcut, by simp⟩
      · simp only [hcut, if_false]
        exact ⟨w.timer + delay, rfl, Nat.le_add_right _ _, Nat.le_refl _, by simp; omega⟩

end World

theorem CacheFate.limited_le (fate : CacheFate) (limit : Nat) : (fate.limited limit).1 ≤ limit := by
  unfold CacheFate.limited
  split
  · exact Nat.le_refl _
  · split
    · assumption
    · exact Nat.le_refl _

/-- A pause is a wait in a pool. -/
theorem runs_of_pause (deadline : Option Nat) (delay : Nat) {r : ι} (op : Operation (β r))
    (w : World) (hdeadline : ∀ d, deadline = some d → w.timer ≤ d)
    (hdelay : ∀ t, (⟨r, op, w.timer⟩ : Job β).cutOff? = some t → w.timer + delay ≤ t) :
    Runs program c anyOrder ⟨w.bare, [⟨r, op, w.timer⟩]⟩
        [.waits (w.pause deadline delay).2.timer w.wall]
        ⟨(w.pause deadline delay).2.bare, [⟨r, op, w.timer⟩]⟩
      ∧ ∀ d, deadline = some d → (w.pause deadline delay).2.timer ≤ d := by
  obtain ⟨t, hpause, hforward, hlate, hbefore⟩ := World.pause_eq deadline delay w hdeadline
  rw [hpause]
  have hcut : ∀ j ∈ [(⟨r, op, w.timer⟩ : Job β)], ∀ u, j.cutOff? = some u → t ≤ u := by
    intro j hj u hu
    rw [List.mem_singleton.1 hj] at hu
    exact Nat.le_trans hlate (hdelay u hu)
  exact ⟨.single trivial (.waits w.wall hforward hcut), hbefore⟩

/-- Running one operation by itself is a run of a pool; a run that has a value is one to its end. -/
theorem exists_runs_of_run (deadline : Option Nat) {r : ι} (op : Operation (β r)) (w : World)
    (hdeadline : ∀ d, deadline = some d → w.timer ≤ d) :
    ∃ trace left since,
      Runs program c anyOrder ⟨w.bare, [⟨r, op, w.timer⟩]⟩ trace
        ⟨(run c deadline op w).2.bare, [⟨r, left, since⟩]⟩
      ∧ ∀ value, (run c deadline op w).1 = some value → left = .done value := by
  induction op generalizing w with
  | done value =>
    refine ⟨[], .done value, w.timer, .nil, fun v hv => ?_⟩
    rw [Option.some.inj hv]
  | gauge change next ih =>
    obtain ⟨trace, left, since, hrun, hvalue⟩ := ih (w.changeGauge change) hdeadline
    have hstep : Step program c ⟨w.bare, [⟨r, .gauge change next, w.timer⟩]⟩ (.gauge r change)
        ⟨(w.changeGauge change).bare, [⟨r, next, w.timer⟩]⟩ := .gauge (l := [])
    exact ⟨_, left, since, (Runs.single trivial hstep).trans hrun, hvalue⟩
  | store call next ih =>
    obtain ⟨hwait, hbefore⟩ := runs_of_pause deadline (w.noteStore c call).1.delay
      (.store call next) (w.noteStore c call).2 hdeadline (by simp [Job.cutOff?])
    unfold run
    simp only
    rcases hresult : (w.noteStore c call).2.pause deadline (w.noteStore c call).1.delay with ⟨b, w₁⟩
    rw [hresult] at hwait hbefore
    cases b with
    | false =>
      -- the deadline comes while the call waits
      exact ⟨_, .store call next, w.timer, hwait, by simp⟩
    | true =>
      have hanswer := World.storeAnswers_endStore (c := c) call (w.noteStore c call).1.failure w₁
      have hstep : Step program c ⟨w₁.bare, [⟨r, .store call next, w.timer⟩]⟩ _ ⟨_, [_]⟩ :=
        .store (l := []) hanswer
      obtain ⟨trace, left, since, hrun, hvalue⟩ := ih _
        (w₁.endStore c call (w.noteStore c call).1.failure).2 (by simpa using hbefore)
      rw [World.timer_endStore] at hrun
      exact ⟨_, left, since, (hwait.trans (.single trivial hstep)).trans hrun, hvalue⟩
  | cache limit call next ih =>
    have hdelay : ∀ t, (⟨r, .cache limit call next, w.timer⟩ : Job β).cutOff? = some t →
        w.timer + ((w.noteCache c call).1.limited limit).1 ≤ t := by
      intro t ht
      rw [← Option.some.inj ht]
      exact Nat.add_le_add_left ((w.noteCache c call).1.limited_le limit) _
    obtain ⟨hwait, hbefore⟩ := runs_of_pause deadline ((w.noteCache c call).1.limited limit).1
      (.cache limit call next) (w.noteCache c call).2 hdeadline hdelay
    unfold run
    simp only
    rcases hresult : (w.noteCache c call).2.pause deadline
      ((w.noteCache c call).1.limited limit).1 with ⟨b, w₁⟩
    rw [hresult] at hwait hbefore
    cases b with
    | false =>
      -- the deadline comes while the call waits
      exact ⟨_, .cache limit call next, w.timer, hwait, by simp⟩
    | true =>
      have hanswer :=
        World.cacheAnswers_endCache call ((w.noteCache c call).1.limited limit).2 w₁
      have hstep : Step program c ⟨w₁.bare, [⟨r, .cache limit call next, w.timer⟩]⟩ _ ⟨_, [_]⟩ :=
        .cache (l := []) hanswer
      obtain ⟨trace, left, since, hrun, hvalue⟩ := ih _
        (w₁.endCache call ((w.noteCache c call).1.limited limit).2).2 (by simpa using hbefore)
      rw [World.timer_endCache] at hrun
      exact ⟨_, left, since, (hwait.trans (.single trivial hstep)).trans hrun, hvalue⟩

end TaskBoard.Run
