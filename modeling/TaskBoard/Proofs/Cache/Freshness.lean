import TaskBoard.Proofs.Cache.Stage
import TaskBoard.Run.Probe

/-!
# Cached lists of operations that run one after another

While operations on a cached store run one after another, a list is what the store held at a
moment after the last flush that went well. If all flushes go well it is what the store holds: the
cache cannot be noticed.

* `oneByOne_run`: every list in the cache and on its way is one that the store has held since the
  last flush that went well;
* `table_run`: between two flushes the stored tasks do not change;
* `runs_of_miss`, `runs_of_create`: what is seen of one call by itself;
* `list_fresh`: what a list shows.
-/

namespace TaskBoard.Caching

open Run

variable {g : Caching} {c : Conditions} {w : World} {p p' m : Pool StoreCall.Reply}
  {trace : List (Event StoreCall.Reply)} {e : Event StoreCall.Reply}

/-- Operations start one after another, and only reads are dropped. -/
def sequential (p : Pool StoreCall.Reply) : Event StoreCall.Reply → Prop
  | .starts _ => p.jobs = []
  | .drops r => r.writes = false
  | _ => True

/-- All cached lists are dropped. -/
inductive Flushed : Event StoreCall.Reply → Prop where
  | mk (r : StoreCall) (n : Nat) (time : Nat) (left : Operation r.Reply) :
      Flushed (.cache r (.invalidate listKeyPrefix) (.ok n) time left)

/-- Dropping all cached lists fails. -/
inductive FlushFailed : Event StoreCall.Reply → Prop where
  | mk (r : StoreCall) (e : CacheError) (time : Nat) (left : Operation r.Reply) :
      FlushFailed (.cache r (.invalidate listKeyPrefix) (.error e) time left)

/-! ## Lists since the last flush -/

/-- Since the last flush that went well the store has held these tasks for the query. -/
def Seen (g : Caching) (c : Conditions) (w : World) (trace : List (Event StoreCall.Reply))
    (p : Pool StoreCall.Reply) (q : Query) (tasks : List Task) : Prop :=
  ∃ before m after, trace = before ++ after
    ∧ Runs (perform (some g)) c sequential ⟨w, []⟩ before m
    ∧ Runs (perform (some g)) c sequential m after p
    ∧ (∀ e ∈ after, ¬ Flushed e) ∧ tasks = m.world.table.list q

theorem Seen.snoc {q : Query} {tasks : List Task} (h : Seen g c w trace p q tasks)
    (hallowed : sequential p e) (hstep : Step (perform (some g)) c p e p')
    (hflush : ¬ Flushed e) : Seen g c w (trace ++ [e]) p' q tasks := by
  obtain ⟨before, m, after, rfl, hbefore, hafter, hnone, htasks⟩ := h
  refine ⟨before, m, after ++ [e], by simp, hbefore, .snoc hafter hallowed hstep, ?_, htasks⟩
  intro f hf
  rcases List.mem_append.1 hf with hf | hf
  · exact hnone f hf
  · rw [List.mem_singleton.1 hf]
    exact hflush

/-- What the store holds now it has held since the last flush. -/
theorem Seen.now (hrun : Runs (perform (some g)) c sequential ⟨w, []⟩ trace p) (q : Query) :
    Seen g c w trace p q (p.world.table.list q) :=
  ⟨trace, p, [], by simp, hrun, .nil, by simp, rfl⟩

/-- One operation at a time, with lists that have been seen in the cache and on their way. -/
structure OneByOne (g : Caching) (c : Conditions) (w : World)
    (trace : List (Event StoreCall.Reply)) (p : Pool StoreCall.Reply) : Prop where
  single : p.jobs.length ≤ 1
  cached : Cached (fun q tasks _ => Seen g c w trace p q tasks) p.world.cache
  stage : ∀ j ∈ p.jobs, Stage g (Seen g c w trace p) (Seen g c w trace p) j.request j.left

/-- If one of at most one operations is this one, it is the only one. -/
theorem eq_nil_of_single {l js : List (Job StoreCall.Reply)} {j : Job StoreCall.Reply}
    (h : (l ++ j :: js).length ≤ 1) : l = [] ∧ js = [] := by
  simp only [List.length_append, List.length_cons] at h
  exact ⟨List.length_eq_zero_iff.1 (by omega), List.length_eq_zero_iff.1 (by omega)⟩

theorem eq_of_mem_single {jobs : List (Job StoreCall.Reply)} {i j : Job StoreCall.Reply}
    (h : jobs.length ≤ 1) (hi : i ∈ jobs) (hj : j ∈ jobs) : i = j := by
  obtain ⟨l, js, rfl⟩ := List.append_of_mem hj
  obtain ⟨rfl, rfl⟩ := eq_nil_of_single h
  simpa using hi

/-- An answer of the cache keeps the lists in the cache and on their way among those that have been
seen; if it is a flush, there are none. -/
theorem seen_of_answer {seen seen' : Query → List Task → Prop} {w₁ w₂ : World} {r : StoreCall}
    {limit : Nat} {asked : CacheCall} {next : asked.Reply → Operation r.Reply}
    {reply : asked.Reply} (hcached : Cached (fun q tasks _ => seen q tasks) w₁.cache)
    (hjob : Stage g seen seen r (.cache limit asked next))
    (hanswer : CacheAnswers asked w₁ reply w₂)
    (hkeep : ¬ Flushed (.cache r asked reply w₁.timer (next reply)) →
      ∀ q tasks, seen q tasks → seen' q tasks) :
    Cached (fun q tasks _ => seen' q tasks) w₂.cache ∧ Stage g seen' seen' r (next reply) := by
  by_cases hflushed : Flushed (.cache r asked reply w₁.timer (next reply))
  · -- a flush leaves no list in the cache, and the write that asked for it returns none
    generalize he : Event.cache r asked reply w₁.timer (next reply) = e at hflushed
    obtain ⟨r', n, time, left⟩ := hflushed
    cases he
    obtain ⟨-, rfl⟩ := hanswer.of_ok
    refine ⟨(noLists_invalidate w₁.cache).cached, hjob.after_cache _ ?_ ?_⟩
    · intro q tasks hset
      cases hset
    · intro q tasks hhit
      cases hhit
  · have hkeep' := hkeep hflushed
    constructor
    · refine Cached.mono ?_ fun q tasks _ => hkeep' q tasks
      cases hanswer with
      | fails e => exact hcached
      | performs =>
        refine hcached.of_perform w₁.timer asked fun key value ttl hasked => ?_
        obtain ⟨-, ⟨q, hget⟩ | ⟨q, tasks, hset, hseen⟩ | ⟨hflush, -⟩⟩ := hjob.asks_cache
        · rw [hasked] at hget
          cases hget
        · rw [hasked] at hset
          cases hset
          exact ⟨q, tasks, rfl, rfl, hseen⟩
        · rw [hasked] at hflush
          cases hflush
    · refine hjob.after_cache reply (fun q tasks _ => hkeep' q tasks) fun q tasks hhit => ?_
      obtain ⟨hdecode⟩ := hhit
      obtain ⟨hget, -⟩ := hanswer.of_ok
      obtain ⟨-, hseen, -⟩ := hcached.of_hit hget hdecode
      exact hkeep' q tasks hseen

/-- Every step keeps the lists among those that have been seen. -/
theorem oneByOne_step (hrun : Runs (perform (some g)) c sequential ⟨w, []⟩ trace p)
    (h : OneByOne g c w trace p) (hallowed : sequential p e)
    (hstep : Step (perform (some g)) c p e p') : OneByOne g c w (trace ++ [e]) p' := by
  have hrun' : Runs (perform (some g)) c sequential ⟨w, []⟩ (trace ++ [e]) p' :=
    .snoc hrun hallowed hstep
  have hsnoc : ¬ Flushed e → ∀ q tasks, Seen g c w trace p q tasks →
      Seen g c w (trace ++ [e]) p' q tasks :=
    fun hflush _ _ hseen => hseen.snoc hallowed hstep hflush
  obtain ⟨hsingle, hcached, hstage⟩ := h
  cases hstep with
  | starts w' jobs r =>
    have hkeep := hsnoc (by rintro ⟨⟩)
    have hjobs : jobs = [] := hallowed
    refine ⟨by simp [hjobs], hcached.mono fun q tasks _ => hkeep q tasks, fun j hj => ?_⟩
    rw [hjobs, List.mem_singleton] at hj
    rw [hj]
    exact .starts r
  | waits wall hforward hcut =>
    have hkeep := hsnoc (by rintro ⟨⟩)
    exact ⟨hsingle, hcached.mono fun q tasks _ => hkeep q tasks,
      fun j hj => (hstage j hj).mono hkeep hkeep⟩
  | @store w₁ w₂ l js r call next since reply hanswer =>
    have hkeep := hsnoc (by rintro ⟨⟩)
    obtain ⟨rfl, rfl⟩ := eq_nil_of_single hsingle
    refine ⟨by simp, ?_, fun j hj => ?_⟩
    · rw [hanswer.frame.2]
      exact hcached.mono fun q tasks _ => hkeep q tasks
    · rw [List.nil_append, List.mem_singleton] at hj
      rw [hj]
      have hjob := hstage ⟨r, .store call next, since⟩ (by simp)
      -- a list that the store has answered is what it holds now
      refine hjob.after_store reply fun q tasks hlists => ?_
      cases hlists
      obtain rfl := hanswer.of_list
      exact Seen.now hrun' q
  | @cache w₁ w₂ l js r limit asked next since reply hanswer =>
    obtain ⟨rfl, rfl⟩ := eq_nil_of_single hsingle
    have hjob := hstage ⟨r, .cache limit asked next, since⟩ (by simp)
    obtain ⟨hcached', hnext⟩ := seen_of_answer hcached hjob hanswer hsnoc
    refine ⟨by simp, hcached', fun j hj => ?_⟩
    rw [List.nil_append, List.mem_singleton] at hj
    rw [hj]
    exact hnext
  | @gauge w' l js r change next since =>
    exact absurd (hstage ⟨r, .gauge change next, since⟩ (by simp)) Stage.not_gauge
  | @ends w' l js r value since =>
    have hkeep := hsnoc (by rintro ⟨⟩)
    obtain ⟨rfl, rfl⟩ := eq_nil_of_single hsingle
    exact ⟨by simp, hcached.mono fun q tasks _ => hkeep q tasks, by simp⟩
  | @drops w' l js j =>
    have hkeep := hsnoc (by rintro ⟨⟩)
    obtain ⟨rfl, rfl⟩ := eq_nil_of_single hsingle
    exact ⟨by simp, hcached.mono fun q tasks _ => hkeep q tasks, by simp⟩

/-- While operations run one after another, every list in the cache and on its way is one that the
store has held since the last flush that went well. -/
theorem oneByOne_run (hcache : NoLists w.cache)
    (hrun : Runs (perform (some g)) c sequential ⟨w, []⟩ trace p) : OneByOne g c w trace p := by
  have hinit : OneByOne g c w [] ⟨w, []⟩ := ⟨by simp, hcache.cached, by simp⟩
  exact hrun.invariant hinit fun _ _ _ _ hrun h hallowed hstep =>
    oneByOne_step hrun h hallowed hstep

/-! ## Between two flushes -/

/-- An operation is about to flush. -/
def Flushing (j : Job StoreCall.Reply) : Prop :=
  ∃ limit next, j.left = .cache limit (.invalidate listKeyPrefix) next

/-- As long as nothing is flushed, the stored tasks are as they were or the only operation is a
write that is about to flush. -/
theorem table_step (h : OneByOne g c w trace p)
    (hbefore : p.world.table = m.world.table ∨ ∃ j ∈ p.jobs, Flushing j)
    (hallowed : sequential p e) (hstep : Step (perform (some g)) c p e p')
    (hflush : ¬ Flushed e ∧ ¬ FlushFailed e) :
    p'.world.table = m.world.table ∨ ∃ j ∈ p'.jobs, Flushing j := by
  obtain ⟨hsingle, -, hstage⟩ := h
  -- if the operation that steps is not about to flush, the tasks are as they were
  have hsame : ∀ j, p.jobs = [j] → ¬ Flushing j → p.world.table = m.world.table := by
    intro j hj hnot
    rcases hbefore with hbefore | ⟨i, hi, hflushing⟩
    · exact hbefore
    · rw [hj, List.mem_singleton] at hi
      rw [hi] at hflushing
      exact absurd hflushing hnot
  cases hstep with
  | starts w' jobs r =>
    have hjobs : jobs = [] := hallowed
    rcases hbefore with hbefore | ⟨i, hi, -⟩
    · exact Or.inl hbefore
    · simp [hjobs] at hi
  | waits wall hforward hcut => exact hbefore
  | @store w₁ w₂ l js r call next since reply hanswer =>
    obtain ⟨rfl, rfl⟩ := eq_nil_of_single hsingle
    have hjob := hstage ⟨r, .store call next, since⟩ (by simp)
    have htable := hsame _ rfl (by rintro ⟨limit, next, ⟨⟩⟩)
    rcases hjob.flushes_of_write hanswer with hunchanged | ⟨value, hnext⟩
    · exact Or.inl (hunchanged.trans htable)
    · exact Or.inr ⟨⟨r, next reply, w₁.timer⟩, by simp, g.opTimeout, _, hnext⟩
  | @cache w₁ w₂ l js r limit asked next since reply hanswer =>
    obtain ⟨rfl, rfl⟩ := eq_nil_of_single hsingle
    have htable := hsame _ rfl (by
      rintro ⟨limit', next', heq⟩
      cases heq
      cases reply with
      | ok n => exact hflush.1 (.mk r n _ _)
      | error e => exact hflush.2 (.mk r e _ _))
    exact Or.inl (hanswer.frame.2.trans htable)
  | @gauge w' l js r change next since =>
    exact absurd (hstage ⟨r, .gauge change next, since⟩ (by simp)) Stage.not_gauge
  | @ends w' l js r value since =>
    obtain ⟨rfl, rfl⟩ := eq_nil_of_single hsingle
    exact Or.inl (hsame _ rfl (by rintro ⟨limit, next, ⟨⟩⟩))
  | @drops w' l js j =>
    obtain ⟨rfl, rfl⟩ := eq_nil_of_single hsingle
    refine Or.inl (hsame _ rfl ?_)
    -- an operation that is about to flush is a write, and those are not dropped
    rintro ⟨limit, next, hleft⟩
    have hjob := hstage j (by simp)
    rw [hleft] at hjob
    have hread : j.request.writes = false := hallowed
    obtain ⟨-, ⟨q, hget⟩ | ⟨q, tasks, hset, -⟩ | ⟨-, hwrites⟩⟩ := hjob.asks_cache
    · cases hget
    · cases hset
    · rw [hread] at hwrites
      cases hwrites

/-- Between two flushes the stored tasks do not change, but for a write that is about to flush. -/
theorem table_run (hcache : NoLists w.cache)
    (hbefore : Runs (perform (some g)) c sequential ⟨w, []⟩ trace m)
    {after : List (Event StoreCall.Reply)}
    (hafter : Runs (perform (some g)) c sequential m after p)
    (hnone : ∀ e ∈ after, ¬ Flushed e ∧ ¬ FlushFailed e) :
    p.world.table = m.world.table ∨ ∃ j ∈ p.jobs, Flushing j := by
  induction hafter with
  | nil => exact Or.inl rfl
  | @snoc after q q' e hrun hallowed hstep ih =>
    have hinv := oneByOne_run hcache (hbefore.trans hrun)
    exact table_step hinv (ih fun f hf => hnone f (by simp [hf])) hallowed hstep
      (hnone e (by simp))

/-! ## One call by itself -/

/-- A list by itself that is not in the cache is read from the store, put into the cache and
returned. -/
theorem runs_of_miss (hcache : NoLists w.cache) {q : Query} {tasks : List Task}
    (htasks : w.table.list q.normalized = tasks) :
    Runs (perform (some g)) c sequential ⟨w, []⟩
      [.starts (.list q),
        .cache (.list q) (.get q.normalized.cacheKey) (.ok none) w.timer
          (g.readThrough q.normalized),
        .store (.list q) (.list q.normalized) (.ok tasks) w.timer,
        .cache (.list q) (.set q.normalized.cacheKey (encode tasks) g.ttl) (.ok ()) w.timer
          (.done (.ok tasks)),
        .ends (.list q) (.ok tasks)]
      ⟨{ w with cache := w.cache.set w.timer q.normalized.cacheKey (encode tasks) g.ttl }, []⟩ := by
  subst htasks
  exact ((((Runs.single rfl (.starts w [] (StoreCall.list q))).snoc trivial
    (step_of_miss hcache)).snoc trivial (.store (l := []) .performs)).snoc trivial
    (.cache (l := []) .performs)).snoc trivial (.ends (l := []))

/-- A create by itself that the store carries out drops all cached lists. -/
theorem runs_of_create {draft : Draft} {task : Task} {stored : World}
    (hperform : w.performStore c (.create draft) = (.ok task, stored)) :
    Runs (perform (some g)) c sequential ⟨w, []⟩
      [.starts (.create draft), .store (.create draft) (.create draft) (.ok task) w.timer,
        .cache (.create draft) (.invalidate listKeyPrefix)
          (.ok (stored.cache.invalidate listKeyPrefix).1) stored.timer (.done (.ok task)),
        .ends (.create draft) (.ok task)]
      ⟨{ stored with cache := (stored.cache.invalidate listKeyPrefix).2 }, []⟩ := by
  have hanswer : StoreAnswers c (.create draft) w _ _ := .performs
  rw [hperform] at hanswer
  have hwrite : Step (perform (some g)) c
      ⟨w, [⟨.create draft, perform (some g) (.create draft), w.timer⟩]⟩ _
      ⟨stored, [⟨.create draft, (flush (some g)).map fun _ => .ok task, w.timer⟩]⟩ :=
    .store (l := []) hanswer
  exact (((Runs.single rfl (.starts w [] (StoreCall.create draft))).snoc trivial hwrite).snoc
    trivial (.cache (l := []) .performs)).snoc trivial (.ends (l := []))

/-! ## What a list shows -/

/-- While operations on a cached store that starts without cached lists run one after another, a
list shows what the store held for its query at a moment after the last flush that went well. If no
flush has failed it shows what the store holds. -/
theorem list_fresh (hcache : NoLists w.cache)
    (hrun : Runs (perform (some g)) c sequential ⟨w, []⟩ trace p) {q : Query} {tasks : List Task}
    (hend : Step (perform (some g)) c p (.ends (.list q) (.ok tasks)) p') :
    (∃ before m after, trace = before ++ after
      ∧ Runs (perform (some g)) c sequential ⟨w, []⟩ before m
      ∧ Runs (perform (some g)) c sequential m after p
      ∧ (∀ e ∈ after, ¬ Flushed e) ∧ tasks = m.world.table.list q)
    ∧ ((∀ e ∈ trace, ¬ FlushFailed e) → tasks = p.world.table.list q) := by
  obtain ⟨hsingle, -, hstage⟩ := oneByOne_run hcache hrun
  obtain ⟨⟨since, hmem⟩, -⟩ := hend.of_ends
  have hseen : Seen g c w trace p q.normalized tasks := (hstage _ hmem).of_done
  obtain ⟨before, m, after, htrace, hbefore, hafter, hnone, htasks⟩ := hseen
  have hnormalized : m.world.table.list q.normalized = m.world.table.list q := by
    simp [Table.list]
  refine ⟨⟨before, m, after, htrace, hbefore, hafter, hnone, htasks.trans hnormalized⟩, ?_⟩
  intro hfailed
  have hnone' : ∀ e ∈ after, ¬ Flushed e ∧ ¬ FlushFailed e := by
    intro e he
    exact ⟨hnone e he, hfailed e (by simp [htrace, he])⟩
  rcases table_run hcache hbefore hafter hnone' with htable | ⟨j, hj, limit, next, hleft⟩
  · rw [htable, ← hnormalized]
    exact htasks
  · -- the only operation is the list, which has nothing left to do
    obtain rfl := eq_of_mem_single hsingle hj hmem
    cases hleft

/-- A list of nothing is read and cached. Then a task is created, which flushes the lists, the next
list reads it from the store, and the one after that finds it in the cache. -/
theorem list_fresh_found :
    let r : StoreCall := .list .default
    let draft : Draft := { id := some "a", title := "x" }
    let task : Task := draft.toTask "a" ({} : World).now
    ∃ first later m p p',
      Runs (perform (some ⟨1000, 50⟩)) (Probe.conditions {}) sequential ⟨{}, []⟩ first m
      ∧ Event.ends r (.ok []) ∈ first
      ∧ Runs (perform (some ⟨1000, 50⟩)) (Probe.conditions {}) sequential m
        (later ++ [.starts r, .cache r (.get Query.default.normalized.cacheKey)
          (.ok (some (encode [task]))) 0 (.done (.ok [task]))]) p
      ∧ Event.ends (.create draft) (.ok task) ∈ later ∧ (∃ e ∈ later, Flushed e)
      ∧ Step (perform (some ⟨1000, 50⟩)) (Probe.conditions {}) p (.ends r (.ok [task])) p'
      ∧ [task] = p.world.table.list .default := by
  intro r draft task
  let g : Caching := ⟨1000, 50⟩
  let c : Conditions := Probe.conditions {}
  let key := Query.default.normalized.cacheKey
  have hnone : NoLists ({} : World).cache := noLists_empty
  have hempty : ({} : World).table.list Query.default.normalized = [] := by decide +kernel
  have hfirst := runs_of_miss (g := g) (c := c) hnone hempty
  let cached : World := { cache := MemoryCache.set 0 key (encode []) 1000 .empty }
  -- the create flushes the list of nothing
  let stored : World := { cached with table := Keyed.empty.insert "a" task }
  let flushed : World := { stored with cache := (stored.cache.invalidate listKeyPrefix).2 }
  have hperform : cached.performStore c (.create draft) = (.ok task, stored) := rfl
  have hcreate := runs_of_create (g := g) hperform
  -- the second list reads the task, and the third one finds it
  have hlisted : flushed.table.list Query.default.normalized = [task] := by decide +kernel
  have hsecond := runs_of_miss (g := g) (c := c) (noLists_invalidate _) hlisted
  let full : World := { flushed with cache := flushed.cache.set 0 key (encode [task]) 1000 }
  have hhit : Step (perform (some g)) c ⟨full, [⟨r, perform (some g) r, 0⟩]⟩
      (.cache r (.get key) (.ok (some (encode [task]))) 0 (.done (.ok [task])))
      ⟨full, [⟨r, .done (.ok [task]), 0⟩]⟩ :=
    step_of_hit (by simp [MemoryCache.get, MemoryCache.set, full, flushed, stored, cached, key])
  have hstart : Runs (perform (some g)) c sequential ⟨full, []⟩ [.starts r] _ :=
    .single rfl (.starts full [] r)
  have hlater := (hcreate.trans hsecond).trans (hstart.snoc (by trivial) hhit)
  have hend : Step (perform (some g)) c ⟨full, [⟨r, .done (.ok [task]), 0⟩]⟩
      (.ends r (.ok [task])) ⟨full, []⟩ := .ends (l := [])
  obtain ⟨-, hfresh⟩ := list_fresh hnone (hfirst.trans hlater) hend
  refine ⟨_, _, _, _, _, hfirst, ?_, hlater, ?_, ?_, hend, hfresh fun e he hfailed => ?_⟩
  · simp [r]
  · simp
  · refine ⟨_, ?_, .mk (.create draft) (stored.cache.invalidate listKeyPrefix).1 0
      (.done (.ok task))⟩
    simp [stored, cached]
  · -- the only flush of the run went well
    cases hfailed
    simp at he
    obtain h | h := he <;> cases h

end TaskBoard.Caching
