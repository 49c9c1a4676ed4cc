import TaskBoard.Proofs.Cache.Stage
import TaskBoard.Run.Probe

/-!
# How old a cached list can be

Flushes and late writes to the cache may meet in any order, so a cached list may be older than the
last write to the store. But it is not older than its lifetime and the time that a cache call may
take: it was put there in a call that began when the store had answered.

* `bounded_run`: in every interleaving each cached list expires in time after it was read;
* `age_of_hit_lt`: a list that is found in the cache is younger than `ttl + opTimeout`.
-/

namespace TaskBoard.Caching

open Run

variable {g : Caching} {c : Conditions} {w : World} {p p' : Pool StoreCall.Reply}
  {trace : List (Event StoreCall.Reply)} {e : Event StoreCall.Reply}

/-- The store has answered the query with these tasks at time `s`. -/
def ReadAt (trace : List (Event StoreCall.Reply)) (q : Query) (tasks : List Task) (s : Nat) :
    Prop :=
  ∃ r, Event.store r (.list q) (.ok tasks) s ∈ trace

theorem ReadAt.snoc {q : Query} {tasks : List Task} {s : Nat} (h : ReadAt trace q tasks s) :
    ReadAt (trace ++ [e]) q tasks s := by
  obtain ⟨r, hr⟩ := h
  exact ⟨r, List.mem_append_left _ hr⟩

/-- A list in the cache has been read, and expires in time. -/
def Timely (g : Caching) (trace : List (Event StoreCall.Reply)) (timer : Nat) (q : Query)
    (tasks : List Task) (expires : Nat) : Prop :=
  ∃ s, ReadAt trace q tasks s ∧ s ≤ timer ∧ expires ≤ s + g.opTimeout + g.ttl

/-- A list on its way into the cache was read when its operation came there, and no call has run
out of time. -/
structure OnTime (g : Caching) (trace : List (Event StoreCall.Reply)) (timer : Nat)
    (j : Job StoreCall.Reply) : Prop where
  stage : Stage g (fun q tasks => ReadAt trace q tasks j.since) (fun _ _ => True) j.request j.left
  since_le : j.since ≤ timer
  cutOff : ∀ t, j.cutOff? = some t → timer ≤ t

theorem OnTime.snoc {timer : Nat} {j : Job StoreCall.Reply} (h : OnTime g trace timer j) :
    OnTime g (trace ++ [e]) timer j where
  stage := h.stage.mono (fun _ _ hread => hread.snoc) fun _ _ hshown => hshown
  since_le := h.since_le
  cutOff := h.cutOff

/-- The lists in the cache and those on their way there. -/
structure Bounded (g : Caching) (trace : List (Event StoreCall.Reply))
    (p : Pool StoreCall.Reply) : Prop where
  cached : Cached (Timely g trace p.world.timer) p.world.cache
  jobs : ∀ j ∈ p.jobs, OnTime g trace p.world.timer j

theorem Cached.later {cache : MemoryCache} {timer timer' : Nat}
    (h : Cached (Timely g trace timer) cache) (htimer : timer ≤ timer') :
    Cached (Timely g (trace ++ [e]) timer') cache := by
  refine h.mono fun q tasks t hknown => ?_
  obtain ⟨s, hread, hs, ht⟩ := hknown
  exact ⟨s, hread.snoc, Nat.le_trans hs htimer, ht⟩

/-- A cache call is made in time, so what it puts into the cache expires in time. -/
theorem Cached.of_answer {w' : World} {call : StoreCall} {limit since : Nat} {asked : CacheCall}
    {next : asked.Reply → Operation call.Reply} {reply : asked.Reply}
    (hcached : Cached (Timely g trace w.timer) w.cache)
    (hjob : OnTime g trace w.timer ⟨call, .cache limit asked next, since⟩)
    (hanswer : CacheAnswers asked w reply w') :
    Cached (Timely g (trace ++ [e]) w'.timer) w'.cache := by
  cases hanswer with
  | fails e => exact hcached.later (Nat.le_refl _)
  | performs =>
    have hset : ∀ key value ttl, asked = .set key value ttl →
        ∃ q tasks, key = q.cacheKey ∧ value = encode tasks
          ∧ Timely g trace w.timer q tasks (w.timer + ttl) := by
      intro key value ttl hasked
      have hbefore : w.timer ≤ since + limit := hjob.cutOff _ rfl
      obtain ⟨hlimit, ⟨q, hget⟩ | ⟨q, tasks, hset, hread⟩ | ⟨hflush, -⟩⟩ := hjob.stage.asks_cache
      · rw [hasked] at hget
        cases hget
      · rw [hasked] at hset
        cases hset
        exact ⟨q, tasks, rfl, rfl, since, hread, hjob.since_le, by omega⟩
      · rw [hasked] at hflush
        cases hflush
    exact (hcached.of_perform w.timer asked hset).later (Nat.le_refl _)

/-- Every step keeps the lists in time. -/
theorem bounded_step (h : Bounded g trace p) (hstep : Step (perform (some g)) c p e p') :
    Bounded g (trace ++ [e]) p' := by
  obtain ⟨hcached, hjobs⟩ := h
  cases hstep with
  | starts w jobs r =>
    refine ⟨hcached.later (Nat.le_refl _), fun j hj => ?_⟩
    rcases List.mem_cons.1 hj with hnew | hold
    · rw [hnew]
      exact ⟨.starts r, Nat.le_refl _, fun t ht => Job.le_cutOff ht⟩
    · exact (hjobs j hold).snoc
  | waits wall hforward hcut =>
    refine ⟨hcached.later hforward, fun j hj => ?_⟩
    have hsince := (hjobs j hj).since_le
    exact ⟨(hjobs j hj).snoc.stage, Nat.le_trans hsince hforward, hcut j hj⟩
  | @store w w' l js r call next since reply hanswer =>
    obtain ⟨htimer, hcache⟩ := hanswer.frame
    refine ⟨?_, ?_⟩
    · simp only [htimer, hcache]
      exact hcached.later (Nat.le_refl _)
    · simp only [htimer]
      refine forall_mem_replace hjobs (fun i _ hi => hi.snoc) ?_
      have hjob := hjobs ⟨r, .store call next, since⟩ (by simp)
      -- what the store has answered has been read just now
      refine ⟨hjob.stage.after_store reply fun q tasks hlists => ?_, Nat.le_refl _,
        fun t ht => Job.le_cutOff ht⟩
      cases hlists
      exact ⟨r, by simp⟩
  | @cache w w' l js r limit asked next since reply hanswer =>
    obtain ⟨htimer, -⟩ := hanswer.frame
    have hjob := hjobs ⟨r, .cache limit asked next, since⟩ (by simp)
    refine ⟨hcached.of_answer hjob hanswer, ?_⟩
    simp only [htimer]
    refine forall_mem_replace hjobs (fun i _ hi => hi.snoc) ?_
    exact ⟨hjob.stage.after_cache reply (fun _ _ _ _ => trivial) fun _ _ _ => trivial,
      Nat.le_refl _, fun t ht => Job.le_cutOff ht⟩
  | @gauge w l js r change next since =>
    exact absurd (hjobs ⟨r, .gauge change next, since⟩ (by simp)).stage Stage.not_gauge
  | ends =>
    exact ⟨hcached.later (Nat.le_refl _), fun j hj => (forall_mem_remove hjobs j hj).snoc⟩
  | drops j =>
    exact ⟨hcached.later (Nat.le_refl _), fun j hj => (forall_mem_remove hjobs j hj).snoc⟩

/-- In every interleaving each cached list expires in time after it was read. -/
theorem bounded_run (hcache : NoLists w.cache)
    (hrun : Runs (perform (some g)) c anyOrder ⟨w, []⟩ trace p) : Bounded g trace p := by
  have hinit : Bounded g [] ⟨w, []⟩ := ⟨hcache.cached, by simp⟩
  exact hrun.invariant hinit fun _ _ _ _ _ h _ hstep => bounded_step h hstep

/-- In every interleaving of operations on a cached store that starts without cached lists, a list
that is found in the cache at time `t` is what the store answered to the query at a time `s` less
than `ttl + opTimeout` before. -/
theorem age_of_hit_lt (hcache : NoLists w.cache)
    (hrun : Runs (perform (some g)) c anyOrder ⟨w, []⟩ trace p) {q : Query} {key : String}
    {reply : (CacheCall.get key).Reply} {t : Nat} {tasks : List Task}
    (hhit : Step (perform (some g)) c p (.cache (.list q) (.get key) reply t (.done (.ok tasks)))
      p') :
    ∃ r s, Event.store r (.list q.normalized) (.ok tasks) s ∈ trace ∧ s ≤ t
      ∧ t - s < g.ttl + g.opTimeout := by
  obtain ⟨hcached, hjobs⟩ := bounded_run hcache hrun
  obtain ⟨limit, next, since, hmem, hleft, ht, hanswer⟩ := hhit.of_cache
  -- an answer to `get` that ends the operation is a hit
  have hstage : Stage g (fun _ _ => True) (Hits (.get key) reply) (.list q) (next reply) :=
    (hjobs _ hmem).stage.after_cache reply (fun _ _ hset => by cases hset) fun _ _ h => h
  rw [← hleft] at hstage
  obtain ⟨hdecode⟩ := hstage.of_done
  obtain ⟨hget, -⟩ := hanswer.of_ok
  obtain ⟨expires, ⟨s, ⟨r, hread⟩, hs, hexpires⟩, hlive⟩ := hcached.of_hit hget hdecode
  exact ⟨r, s, hread, by omega, by omega⟩

/-- The run in which an empty list is read at time 0, put into the cache at time 50, when the call
runs out of time, and found there at time 1049, when it is about to expire. -/
theorem age_of_hit_lt_latest :
    ∃ trace p p',
      Runs (perform (some ⟨1000, 50⟩)) (Probe.conditions {}) anyOrder ⟨{}, []⟩ trace p
      ∧ Step (perform (some ⟨1000, 50⟩)) (Probe.conditions {}) p
        (.cache (.list .default) (.get Query.default.normalized.cacheKey) (.ok (some (encode [])))
          1049 (.done (.ok []))) p'
      ∧ ∃ r s, Event.store r (.list Query.default.normalized) (.ok []) s ∈ trace ∧ s ≤ 1049
        ∧ 1049 - s < 1000 + 50 := by
  have hempty : Table.list .empty Query.default.normalized = [] := by
    simp [Table.list, Table.matching, Keyed.values, Keyed.empty]
  rw [← hempty]
  let r : StoreCall := .list .default
  let key := Query.default.normalized.cacheKey
  let text := encode (Table.list .empty Query.default.normalized)
  let fill : Operation r.Reply :=
    .cache 50 (.set key text 1000) fun _ => .done (.ok (Table.list .empty Query.default.normalized))
  let shown : Operation r.Reply := .done (.ok (Table.list .empty Query.default.normalized))
  let full : MemoryCache := MemoryCache.set 50 key text 1000 .empty
  let late : World := { timer := 1049, cache := full }
  let Goes := Step (perform (some ⟨1000, 50⟩)) (Probe.conditions {})
  have hnone : NoLists ({} : World).cache := noLists_empty
  have hmiss : Goes ⟨{}, [⟨r, perform (some ⟨1000, 50⟩) r, 0⟩]⟩ _
      ⟨{}, [⟨r, readThrough ⟨1000, 50⟩ Query.default.normalized, 0⟩]⟩ :=
    step_of_miss hnone
  have hread : Goes ⟨{}, [⟨r, readThrough ⟨1000, 50⟩ Query.default.normalized, 0⟩]⟩ _
      ⟨{}, [⟨r, fill, 0⟩]⟩ := .store (l := []) .performs
  have hwait : Goes ⟨{}, [⟨r, fill, 0⟩]⟩ (.waits 50 0) ⟨{ timer := 50 }, [⟨r, fill, 0⟩]⟩ :=
    .waits 0 (by decide) (by simp [Job.cutOff?, fill])
  have hfill : Goes ⟨{ timer := 50 }, [⟨r, fill, 0⟩]⟩ _
      ⟨{ timer := 50, cache := full }, [⟨r, shown, 50⟩]⟩ := .cache (l := []) .performs
  have hend : Goes ⟨{ timer := 50, cache := full }, [⟨r, shown, 50⟩]⟩ _
      ⟨{ timer := 50, cache := full }, []⟩ := .ends (l := [])
  have hlong : Goes ⟨{ timer := 50, cache := full }, []⟩ (.waits 1049 0) ⟨late, []⟩ :=
    .waits 0 (by decide) (by simp)
  have hhit : Goes ⟨late, [⟨r, perform (some ⟨1000, 50⟩) r, 1049⟩]⟩
      (.cache r (.get key) (.ok (some text)) 1049 shown) ⟨late, [⟨r, shown, 1049⟩]⟩ :=
    step_of_hit (by simp [MemoryCache.get, MemoryCache.set, late, full, key, text])
  have hrun : Runs (perform (some ⟨1000, 50⟩)) (Probe.conditions {}) anyOrder ⟨{}, []⟩ _
      ⟨late, [⟨r, perform (some ⟨1000, 50⟩) r, 1049⟩]⟩ :=
    (((((((Runs.single trivial (.starts {} [] r)).snoc trivial hmiss).snoc trivial hread).snoc
      trivial hwait).snoc trivial hfill).snoc trivial hend).snoc trivial hlong).snoc trivial
      (.starts late [] r)
  exact ⟨_, _, _, hrun, hhit, age_of_hit_lt hnone hrun hhit⟩

end TaskBoard.Caching
