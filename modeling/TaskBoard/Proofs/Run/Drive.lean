import TaskBoard.Run.Single

/-!
# Running over any store and any cache

A store and a cache can be anything that answers calls. `drive` runs an operation over a store that
comes back from every call and a cache that need not; the time limit of the operation's cache calls
sees to it that the run does.

* `Scene.lingers_askCache`: a cache call takes no longer than its limit and changes nothing else;
* `run_eq_drive`: running under conditions is a drive over the store and the cache that they make.
-/

namespace TaskBoard.Run

/-- A store of any kind. What the world outside gives to a call, such as the time and a new id, is
its reading. -/
structure AnyStore (ρ σ : Type) where
  perform : ρ → (call : StoreCall) → σ → call.Reply × σ
  /-- How long the call takes. -/
  delay : ρ → StoreCall → σ → Nat

/-- What the world outside gives to a call of the task store. -/
structure Reading where
  wall : Instant
  /-- The id of a task that comes without one. -/
  freshId : String

/-- The time that a store sees. -/
def Reading.now (r : Reading) : Instant := r.wall.toMicros

/-- The store of tasks in memory. -/
def memoryStore : AnyStore Reading Table where
  perform reading call := Table.perform reading.now reading.freshId call
  delay _ _ _ := 0

/-- How a cache call goes if nobody cuts it off. -/
inductive CacheEnd (call : CacheCall) where
  /-- It never ends. -/
  | stalls
  | ends (delay : Nat) (reply : call.Reply)

/-- A cache of any kind. It may go by the time and by the time that it is given, and may answer
anything or nothing. -/
structure AnyCache (κ : Type) where
  perform : (timer limit : Nat) → (call : CacheCall) → κ → CacheEnd call × κ

/-- How long a cache call takes within a time limit, and its answer. A call that takes exactly the
limit is in time. -/
def CacheEnd.limited {call : CacheCall} (fate : CacheEnd call) (limit : Nat) : Nat × call.Reply :=
  let cutOff := (limit, .error (CacheError.timeout (limit * 1000000)))
  match fate with
  | stalls => cutOff
  | ends delay reply => if delay ≤ limit then (delay, reply) else cutOff

/-- A store call and its answer. -/
abbrev StoreAnswer := (call : StoreCall) × call.Reply

/-- A store and a cache as they are used. -/
structure Scene (σ κ : Type) where
  store : σ
  cache : κ
  /-- Milliseconds. -/
  timer : Nat := 0
  /-- How much of the time has been spent in cache calls. -/
  inCache : Nat := 0
  /-- The store calls that have been made and their answers, last first. -/
  log : List StoreAnswer := []

variable {ρ σ κ α : Type}

/-- The answers to calls one after the other, each with what the store is after it. -/
def AnyStore.answers (S : AnyStore ρ σ) : List (ρ × StoreCall) → σ → List (StoreAnswer × σ)
  | [], _ => []
  | (reading, call) :: calls, s =>
    let (reply, s) := S.perform reading call s
    (⟨call, reply⟩, s) :: S.answers calls s

/-- A store call within a scene. -/
def Scene.ask (S : AnyStore ρ σ) (reading : ρ) (call : StoreCall) (s : Scene σ κ) :
    call.Reply × Scene σ κ :=
  let (reply, store) := S.perform reading call s.store
  (reply, { s with
    store
    timer := s.timer + S.delay reading call s.store
    log := ⟨call, reply⟩ :: s.log })

/-- A cache call within a scene. -/
def Scene.askCache (C : AnyCache κ) (limit : Nat) (call : CacheCall) (s : Scene σ κ) :
    call.Reply × Scene σ κ :=
  let (fate, cache) := C.perform s.timer limit call s.cache
  let (delay, reply) := fate.limited limit
  (reply, { s with cache, timer := s.timer + delay, inCache := s.inCache + delay })

/-- The value of an operation over a store and a cache, and the scene after it. -/
def drive (S : AnyStore ρ σ) (C : AnyCache κ) (reading : ρ) :
    Operation α → Scene σ κ → α × Scene σ κ
  | .done a, s => (a, s)
  | .store call next, s =>
    let (reply, s) := s.ask S reading call
    drive S C reading (next reply) s
  | .cache limit call next, s =>
    let (reply, s) := s.askCache C limit call
    drive S C reading (next reply) s
  | .gauge _ next, s => drive S C reading next s

variable {S : AnyStore ρ σ} {C : AnyCache κ} {reading : ρ}

theorem CacheEnd.limited_le {call : CacheCall} (fate : CacheEnd call) (limit : Nat) :
    (fate.limited limit).1 ≤ limit := by
  unfold CacheEnd.limited
  split
  · exact Nat.le_refl _
  · split
    · assumption
    · exact Nat.le_refl _

/-- Nothing has changed but the cache, and no more time has passed than the limit. -/
structure Scene.Lingers (limit : Nat) (s s' : Scene σ κ) : Prop where
  store_eq : s'.store = s.store
  log_eq : s'.log = s.log
  inCache_le : s'.inCache ≤ s.inCache + limit
  timer_le : s'.timer ≤ s.timer + limit

/-- A cache call takes no longer than its limit and changes nothing but the cache. -/
theorem Scene.lingers_askCache (C : AnyCache κ) (limit : Nat) (call : CacheCall) (s : Scene σ κ) :
    s.Lingers limit (s.askCache C limit call).2 where
  store_eq := rfl
  log_eq := rfl
  inCache_le := Nat.add_le_add_left (CacheEnd.limited_le _ limit) _
  timer_le := Nat.add_le_add_left (CacheEnd.limited_le _ limit) _

theorem Scene.Lingers.of_zero (limit : Nat) (s : Scene σ κ) : s.Lingers limit s where
  store_eq := rfl
  log_eq := rfl
  inCache_le := Nat.le_add_right _ _
  timer_le := Nat.le_add_right _ _

/-! ## Conditions as a store and a cache

The state of the store under conditions is its table, with how many ids have been generated and how
many calls have been made; that of the cache is its texts and how many calls have been made. -/

/-- The store that conditions make. Its reading is the time. -/
def Conditions.anyStore (c : Conditions) : AnyStore Instant (Table × Nat × Nat) where
  perform now call := fun (table, ids, calls) =>
    match (c.store calls call).failure with
    | some detail => (.error (.persistence detail), table, ids, calls + 1)
    | none =>
      let (reply, table) := Table.perform now (c.id ids) call table
      (reply, table, if World.takesId call then ids + 1 else ids, calls + 1)
  delay _ call := fun (_, _, calls) => (c.store calls call).delay

/-- The cache that conditions make. A call that would be too late is not performed. -/
def Conditions.anyCache (c : Conditions) : AnyCache (MemoryCache × Nat) where
  perform timer limit call := fun (cache, calls) =>
    match c.cache calls call with
    | .stalls => (.stalls, cache, calls + 1)
    | .ends delay failure =>
      if delay ≤ limit then
        match failure with
        | some e => (.ends delay (.error e), cache, calls + 1)
        | none =>
          let (answer, cache) := MemoryCache.perform (timer + delay) call cache
          (.ends delay (.ok answer), cache, calls + 1)
      else (.stalls, cache, calls + 1)

/-- The world and the scene are in the same state. -/
structure SameState (w : World) (s : Scene (Table × Nat × Nat) (MemoryCache × Nat)) : Prop where
  store : s.store = (w.table, w.ids, w.storeCalls.length)
  cache : s.cache = (w.cache, w.cacheCalls.length)
  timer : s.timer = w.timer

theorem World.pause_none (delay : Nat) (w : World) :
    w.pause none delay = (true, { w with timer := w.timer + delay }) := by
  unfold World.pause World.waitUntil
  by_cases hzero : delay = 0
  · simp [hzero]
  · simp [hzero]

/-- The world after a store call that nothing cuts off. -/
def World.storeCall (c : Conditions) (call : StoreCall) (w : World) : call.Reply × World :=
  let (fate, w) := w.noteStore c call
  { w with timer := w.timer + fate.delay }.endStore c call fate.failure

/-- The world after a cache call that nothing but its limit cuts off. -/
def World.cacheCall (c : Conditions) (limit : Nat) (call : CacheCall) (w : World) :
    call.Reply × World :=
  let (fate, w) := w.noteCache c call
  let (delay, failure) := fate.limited limit
  { w with timer := w.timer + delay }.endCache call failure

theorem run_store (c : Conditions) (call : StoreCall) (next : call.Reply → Operation α)
    (w : World) : run c none (.store call next) w
      = run c none (next (w.storeCall c call).1) (w.storeCall c call).2 := by
  simp only [run, World.pause_none, World.storeCall]

theorem run_cache (c : Conditions) (limit : Nat) (call : CacheCall)
    (next : call.Reply → Operation α) (w : World) : run c none (.cache limit call next) w
      = run c none (next (w.cacheCall c limit call).1) (w.cacheCall c limit call).2 := by
  simp only [run, World.pause_none, World.cacheCall]

variable {w : World} {s : Scene (Table × Nat × Nat) (MemoryCache × Nat)}

theorem SameState.ask (h : SameState w s) (c : Conditions) (call : StoreCall) :
    (s.ask c.anyStore w.now call).1 = (w.storeCall c call).1
      ∧ SameState (w.storeCall c call).2 (s.ask c.anyStore w.now call).2
      ∧ (w.storeCall c call).2.now = w.now := by
  obtain ⟨hstore, hcache, htimer⟩ := h
  simp only [Scene.ask, Conditions.anyStore, World.storeCall, World.noteStore, hstore]
  cases (c.store w.storeCalls.length call).failure with
  | some detail => exact ⟨rfl, ⟨rfl, hcache, by simp [World.endStore, htimer]⟩, rfl⟩
  | none => exact ⟨rfl, ⟨rfl, hcache, by simp [World.endStore, World.performStore, htimer]⟩, rfl⟩

theorem SameState.askCache (h : SameState w s) (c : Conditions) (limit : Nat) (call : CacheCall) :
    (s.askCache c.anyCache limit call).1 = (w.cacheCall c limit call).1
      ∧ SameState (w.cacheCall c limit call).2 (s.askCache c.anyCache limit call).2
      ∧ (w.cacheCall c limit call).2.now = w.now := by
  obtain ⟨hstore, hcache, htimer⟩ := h
  simp only [Scene.askCache, Conditions.anyCache, World.cacheCall, World.noteCache, hcache, htimer]
  cases c.cache w.cacheCalls.length call with
  | stalls => exact ⟨rfl, ⟨hstore, rfl, rfl⟩, rfl⟩
  | ends delay failure =>
    by_cases hlate : delay ≤ limit
    · cases failure with
      | some e =>
        simp only [CacheFate.limited, CacheEnd.limited, hlate, if_true]
        exact ⟨rfl, ⟨hstore, rfl, rfl⟩, rfl⟩
      | none =>
        simp only [CacheFate.limited, CacheEnd.limited, hlate, if_true]
        exact ⟨rfl, ⟨hstore, rfl, rfl⟩, rfl⟩
    · simp only [CacheFate.limited, CacheEnd.limited, hlate, if_false]
      exact ⟨rfl, ⟨hstore, rfl, rfl⟩, rfl⟩

/-- Running without a deadline is a drive over the store and the cache that the conditions make. -/
theorem run_eq_drive (c : Conditions) (op : Operation α) (h : SameState w s) :
    (run c none op w).1 = some (drive c.anyStore c.anyCache w.now op s).1
      ∧ SameState (run c none op w).2 (drive c.anyStore c.anyCache w.now op s).2 := by
  induction op generalizing w s with
  | done a => exact ⟨rfl, h⟩
  | gauge change next ih =>
    have hsame : SameState (w.changeGauge change) s := ⟨h.store, h.cache, h.timer⟩
    exact ih hsame
  | store call next ih =>
    obtain ⟨hreply, hsame, hnow⟩ := h.ask c call
    have hrest := ih (w.storeCall c call).1 hsame
    rw [hnow, ← hreply] at hrest
    rw [run_store, ← hreply]
    exact hrest
  | cache limit call next ih =>
    obtain ⟨hreply, hsame, hnow⟩ := h.askCache c limit call
    have hrest := ih (w.cacheCall c limit call).1 hsame
    rw [hnow, ← hreply] at hrest
    rw [run_cache, ← hreply]
    exact hrest

end TaskBoard.Run
