import TaskBoard.Proofs.Cache.Stage
import TaskBoard.Proofs.Run.Drive

/-!
# No cache does harm

Whatever a cache answers to a call, whether it fails, and whether it comes back at all, the store
is asked what it would be asked without the cache, but for lists that are found in the cache, and
its answers are returned.

* `drive_afterStore`, `drive_list`: what becomes of one call;
* `harmless_call`: one call lasts a little longer at most and returns the answer of the store;
* `asking_history`: the calls that ask the store do to it what they do without a cache and without
  the other calls;
* `harmless_history`: this of every call of a history and of the whole history;
* `not_always_same_states`: a store that counts its lists tells the cache from none.
-/

namespace TaskBoard.Caching

open Run

variable {ρ σ κ : Type}

/-- How much time cache calls may add to a call. -/
def allowance (g : Caching) : StoreCall → Nat
  | .list _ => 2 * g.opTimeout
  | .create _ | .update _ | .delete _ => g.opTimeout
  | .get _ | .count | .countFiltered _ => 0

/-- The list that the cache has for a query, if it comes back in time with the text of one. -/
def found? (g : Caching) (C : AnyCache κ) (q : Query) (s : Scene σ κ) : Option (List Task) :=
  match (s.askCache C g.opTimeout (.get q.cacheKey)).1 with
  | .ok (some text) => decode? text
  | _ => none

/-- What has been seen of a call of the cached store. -/
structure Record (ρ σ κ : Type) where
  reading : ρ
  call : StoreCall
  reply : call.Reply
  before : Scene σ κ
  after : Scene σ κ

/-- A call of the cached store, seen from outside. -/
def record (caching : Option Caching) (S : AnyStore ρ σ) (C : AnyCache κ) (reading : ρ)
    (call : StoreCall) (s : Scene σ κ) : Record ρ σ κ :=
  let ran := drive S C reading (perform caching call) s
  ⟨reading, call, ran.1, s, ran.2⟩

/-- What the caller asked for. -/
def Record.called (r : Record ρ σ κ) : ρ × StoreCall := (r.reading, r.call)

/-- What the caller was answered, and what the store was then. -/
def Record.outcome (r : Record ρ σ κ) : StoreAnswer × σ := (⟨r.call, r.reply⟩, r.after.store)

/-- The call is a list that was found in the cache. -/
def Record.isHit (g : Caching) (C : AnyCache κ) (r : Record ρ σ κ) : Bool :=
  match r.call with
  | .list q => (g.found? C q.normalized r.before).isSome
  | _ => false

/-- The calls that have asked the store: all but the lists that were found in the cache. -/
def asking (g : Caching) (C : AnyCache κ) (records : List (Record ρ σ κ)) :
    List (Record ρ σ κ) :=
  records.filter fun r => !r.isHit g C

/-- Calls one after the other, each with its reading. -/
def history (caching : Option Caching) (S : AnyStore ρ σ) (C : AnyCache κ) :
    List (ρ × StoreCall) → Scene σ κ → List (Record ρ σ κ)
  | [], _ => []
  | (reading, call) :: calls, s =>
    let r := record caching S C reading call s
    r :: history caching S C calls r.after

/-- The store has been asked once, for this, and this has been its answer. -/
structure AsksOnce (S : AnyStore ρ σ) (reading : ρ) (call : StoreCall) (reply : call.Reply)
    (before after : Scene σ κ) : Prop where
  reply_eq : reply = (S.perform reading call before.store).1
  store_eq : after.store = (S.perform reading call before.store).2
  log_eq : after.log = ⟨call, reply⟩ :: before.log

/-- A call is answered as the store answers it, but for a list that is found in the cache. -/
def AnsweredAs (g : Caching) (S : AnyStore ρ σ) (C : AnyCache κ) (reading : ρ)
    (before after : Scene σ κ) : (call : StoreCall) → call.Reply → Prop
  | .list q, reply =>
    (∀ e, reply = .error e → AsksOnce S reading (.list q.normalized) (.error e) before after)
    ∧ (g.found? C q.normalized before = none →
      AsksOnce S reading (.list q.normalized) reply before after)
    ∧ ∀ tasks, g.found? C q.normalized before = some tasks →
      reply = .ok tasks ∧ after.store = before.store ∧ after.log = before.log
  | call, reply => AsksOnce S reading call reply before after

/-- What a cache may do to a call: nothing but make it last a little longer, and find a list. -/
structure Harmless (g : Caching) (S : AnyStore ρ σ) (C : AnyCache κ) (r : Record ρ σ κ) : Prop where
  answered : AnsweredAs g S C r.reading r.before r.after r.call r.reply
  /-- The time spent in cache calls. -/
  inCache_le : r.after.inCache ≤ r.before.inCache + g.allowance r.call
  /-- The time that the call takes, against the time that it would take without the cache. -/
  timer_le : r.after.timer
    ≤ (record none S C r.reading r.call r.before).after.timer + g.allowance r.call

/-! ## Without a cache -/

section Without

variable {call : StoreCall} (hcall : ∀ q, call ≠ .list q)

include hcall

theorem perform_none : perform none call = .ask call := by
  cases call with
  | list q => exact absurd rfl (hcall q)
  | create draft =>
    refine congrArg (Operation.store _) (funext fun reply => ?_)
    cases reply <;> rfl
  | update task =>
    refine congrArg (Operation.store _) (funext fun reply => ?_)
    cases reply <;> rfl
  | delete id =>
    refine congrArg (Operation.store _) (funext fun reply => ?_)
    rcases reply with e | _ | _ <;> rfl
  | get id => rfl
  | count => rfl
  | countFiltered f => rfl

theorem record_none (S : AnyStore ρ σ) (C : AnyCache κ) (reading : ρ) (s : Scene σ κ) :
    (record none S C reading call s).after = (s.ask S reading call).2 := by
  simp only [record, perform_none hcall]
  rfl

end Without

/-! ## One call -/

variable (g : Caching) (S : AnyStore ρ σ) (C : AnyCache κ) (reading : ρ)

/-- Only writes are followed by a flush. -/
theorem allowance_of_changes {call : StoreCall} {reply : call.Reply}
    (h : call.changes reply = true) : g.allowance call = g.opTimeout := by
  cases call with
  | create draft => rfl
  | update task => rfl
  | delete id => rfl
  | get id => cases h
  | list q => cases h
  | count => cases h
  | countFiltered f => cases h

/-- After the store has answered, a flush takes its time at most. -/
theorem drive_afterStore (call : StoreCall) (reply : call.Reply) (s : Scene σ κ) :
    (drive S C reading (g.afterStore call reply) s).1 = reply
      ∧ s.Lingers (g.allowance call) (drive S C reading (g.afterStore call reply) s).2 := by
  unfold afterStore
  by_cases hchanges : call.changes reply = true
  · rw [if_pos hchanges, allowance_of_changes g hchanges]
    exact ⟨rfl, s.lingers_askCache C g.opTimeout (.invalidate listKeyPrefix)⟩
  · rw [if_neg hchanges]
    exact ⟨rfl, .of_zero _ s⟩

/-- A list that is read from the store is returned, and is put into the cache on the way. -/
theorem drive_readThrough (q : Query) (s : Scene σ κ) :
    (drive S C reading (g.readThrough q) s).1 = (s.ask S reading (.list q)).1
      ∧ (s.ask S reading (.list q)).2.Lingers g.opTimeout
        (drive S C reading (g.readThrough q) s).2 := by
  simp only [readThrough, drive]
  cases (s.ask S reading (.list q)).1 with
  | error e => exact ⟨rfl, .of_zero _ _⟩
  | ok tasks => exact ⟨rfl, Scene.lingers_askCache C _ _ _⟩

/-- A list is found in the cache, or it is read from the store after that. -/
theorem drive_list (q : Query) (s : Scene σ κ) :
    drive S C reading (perform (some g) (.list q)) s =
      match g.found? C q.normalized s with
      | some tasks => (.ok tasks, (s.askCache C g.opTimeout (.get q.normalized.cacheKey)).2)
      | none => drive S C reading (g.readThrough q.normalized)
        (s.askCache C g.opTimeout (.get q.normalized.cacheKey)).2 := by
  simp only [perform, list, drive, found?]
  rcases (s.askCache C g.opTimeout (.get q.normalized.cacheKey)).1 with e | _ | text
  · rfl
  · rfl
  · simp only
    cases decode? text <;> rfl

variable {g S C reading}

theorem asksOnce_ask {call : StoreCall} {limit : Nat} {before s after : Scene σ κ}
    (hstore : s.store = before.store) (hlog : s.log = before.log)
    (h : (s.ask S reading call).2.Lingers limit after) :
    AsksOnce S reading call (s.ask S reading call).1 before after where
  reply_eq := by
    rw [← hstore]
    rfl
  store_eq := by
    rw [h.store_eq, ← hstore]
    rfl
  log_eq := by
    rw [h.log_eq, ← hlog]
    rfl

theorem answeredAs_iff_of_ne_list {call : StoreCall} {reply : call.Reply}
    {before after : Scene σ κ} (hcall : ∀ q, call ≠ .list q) :
    AnsweredAs g S C reading before after call reply
      ↔ AsksOnce S reading call reply before after := by
  cases call with
  | list q => exact absurd rfl (hcall q)
  | _ => exact Iff.rfl

/-- The answer to a call may be named by what it is equal to. -/
theorem AsksOnce.of_eq {call : StoreCall} {reply reply' : call.Reply} {before after : Scene σ κ}
    (h : AsksOnce S reading call reply before after) (hreply : reply = reply') :
    AsksOnce S reading call reply' before after := by
  rw [← hreply]
  exact h

/-- A list takes two cache calls at most, and the store is asked if the first one finds nothing. -/
theorem harmless_list (q : Query) (s : Scene σ κ) :
    Harmless g S C (record (some g) S C reading (.list q) s) := by
  have hdrive := drive_list g S C reading q s
  have hget := s.lingers_askCache C g.opTimeout (.get q.normalized.cacheKey)
  generalize (s.askCache C g.opTimeout (.get q.normalized.cacheKey)).2 = s₁ at hdrive hget
  obtain ⟨hstore, hlog, hinCache, htimer⟩ := hget
  -- what the list would take without the cache
  have halone : (record none S C reading (.list q) s).after.timer
      = s.timer + S.delay reading (.list q.normalized) s.store := rfl
  have hallowance : g.allowance (.list q) = g.opTimeout + g.opTimeout := Nat.two_mul _
  cases hfound : g.found? C q.normalized s with
  | some tasks =>
    rw [hfound] at hdrive
    have hreply : (record (some g) S C reading (.list q) s).reply = .ok tasks :=
      congrArg Prod.fst hdrive
    have hafter : (record (some g) S C reading (.list q) s).after = s₁ := congrArg Prod.snd hdrive
    constructor
    · refine ⟨fun e he => ?_, fun hnone => ?_, fun tasks' htasks' => ?_⟩
      · cases hreply.symm.trans he
      · cases hfound.symm.trans hnone
      · rw [hafter, ← Option.some.inj (hfound.symm.trans htasks')]
        exact ⟨hreply, hstore, hlog⟩
    · rw [hafter]
      show s₁.inCache ≤ s.inCache + g.allowance (.list q)
      omega
    · rw [hafter]
      show s₁.timer ≤ (record none S C reading (.list q) s).after.timer + g.allowance (.list q)
      omega
  | none =>
    rw [hfound] at hdrive
    obtain ⟨hread, hlingers⟩ := drive_readThrough g S C reading q.normalized s₁
    have hreply : (record (some g) S C reading (.list q) s).reply
        = (s₁.ask S reading (.list q.normalized)).1 := (congrArg Prod.fst hdrive).trans hread
    have hafter : (record (some g) S C reading (.list q) s).after
        = (drive S C reading (g.readThrough q.normalized) s₁).2 := congrArg Prod.snd hdrive
    rw [← hafter] at hlingers
    have hasks := asksOnce_ask hstore hlog hlingers
    have hasked : (s₁.ask S reading (.list q.normalized)).2.timer
        = s₁.timer + S.delay reading (.list q.normalized) s.store := by
      rw [← hstore]
      rfl
    have hinCache' : _ ≤ s₁.inCache + g.opTimeout := hlingers.inCache_le
    have htimer' := hlingers.timer_le
    constructor
    · refine ⟨fun e he => ?_, fun _ => hasks.of_eq hreply.symm, fun tasks htasks => ?_⟩
      · exact hasks.of_eq (hreply.symm.trans he)
      · cases hfound.symm.trans htasks
    · show _ ≤ s.inCache + g.allowance (.list q)
      omega
    · show _ ≤ (record none S C reading (.list q) s).after.timer + g.allowance (.list q)
      omega

/-- No cache does harm to a call. -/
theorem harmless_call (g : Caching) (S : AnyStore ρ σ) (C : AnyCache κ) (reading : ρ)
    (call : StoreCall) (s : Scene σ κ) :
    Harmless g S C (record (some g) S C reading call s) := by
  rcases perform_cases g call with ⟨q, rfl⟩ | ⟨hcall, hperform⟩
  · exact harmless_list q s
  · -- the store is asked first, and then a write flushes the lists
    have hdrive : drive S C reading (perform (some g) call) s
        = drive S C reading (g.afterStore call (s.ask S reading call).1)
          (s.ask S reading call).2 := by
      rw [hperform]
      rfl
    obtain ⟨hreply, hlingers⟩ := drive_afterStore g S C reading call (s.ask S reading call).1
      (s.ask S reading call).2
    rw [← hdrive] at hreply hlingers
    have hasks : AsksOnce S reading call (drive S C reading (perform (some g) call) s).1 s
        (drive S C reading (perform (some g) call) s).2 := by
      rw [hreply]
      exact asksOnce_ask rfl rfl hlingers
    constructor
    · exact (answeredAs_iff_of_ne_list hcall).2 hasks
    · exact hlingers.inCache_le
    · show _ ≤ (record none S C reading call s).after.timer + _
      rw [record_none hcall]
      exact hlingers.timer_le

/-! ## Calls one after the other -/

/-- The store that is asked for the same in the same state answers the same and is the same. -/
theorem AsksOnce.unique {call : StoreCall} {reply reply' : call.Reply}
    {before after before' after' : Scene σ κ} (h : AsksOnce S reading call reply before after)
    (h' : AsksOnce S reading call reply' before' after') (hstore : before.store = before'.store) :
    reply = reply' ∧ after.store = after'.store := by
  rw [h.reply_eq, h'.reply_eq, h.store_eq, h'.store_eq, hstore]
  exact ⟨rfl, rfl⟩

theorem asksOnce_none {call : StoreCall} (hcall : ∀ q, call ≠ .list q) (s : Scene σ κ) :
    AsksOnce S reading call (record none S C reading call s).reply s
      (record none S C reading call s).after := by
  simp only [record, perform_none hcall]
  exact ⟨rfl, rfl, rfl⟩

/-- A list that was found in the cache leaves the store as it is. -/
theorem store_of_isHit {call : StoreCall} {s : Scene σ κ}
    (h : (record (some g) S C reading call s).isHit g C = true) :
    (record (some g) S C reading call s).after.store = s.store := by
  have hanswered := (harmless_call g S C reading call s).answered
  cases call with
  | list q =>
    obtain ⟨tasks, hfound⟩ := Option.isSome_iff_exists.1 h
    exact (hanswered.2.2 tasks hfound).2.1
  | _ => cases h

/-- Every other call ends as it does without a cache. -/
theorem outcome_eq {call : StoreCall} {s s' : Scene σ κ} (hstore : s.store = s'.store)
    (h : (record (some g) S C reading call s).isHit g C = false) :
    (record (some g) S C reading call s).outcome = (record none S C reading call s').outcome := by
  have hanswered := (harmless_call g S C reading call s).answered
  have hends : (record (some g) S C reading call s).reply
        = (record none S C reading call s').reply
      ∧ (record (some g) S C reading call s).after.store
        = (record none S C reading call s').after.store := by
    rcases perform_cases g call with ⟨q, rfl⟩ | ⟨hcall, -⟩
    · have hmissed : (g.found? C q.normalized s).isSome = false := h
      have hasks := hanswered.2.1 (Option.not_isSome_iff_eq_none.1 (Bool.eq_false_iff.1 hmissed))
      have halone : AsksOnce S reading (.list q.normalized)
          (record none S C reading (.list q) s').reply s'
          (record none S C reading (.list q) s').after := ⟨rfl, rfl, rfl⟩
      exact hasks.unique halone hstore
    · have hasks := (answeredAs_iff_of_ne_list hcall).1 hanswered
      exact hasks.unique (asksOnce_none hcall s') hstore
  obtain ⟨hreply, hafter⟩ := hends
  show ((⟨call, _⟩ : StoreAnswer), _) = ((⟨call, _⟩ : StoreAnswer), _)
  rw [hreply, hafter]

/-- The calls of a history that ask the store end as they do without a cache, one after the other
and without the calls between them. -/
theorem asking_history (g : Caching) (calls : List (ρ × StoreCall)) {s s' : Scene σ κ}
    (hstore : s.store = s'.store) :
    (asking g C (history (some g) S C calls s)).map Record.outcome
      = (history none S C ((asking g C (history (some g) S C calls s)).map Record.called) s').map
          Record.outcome := by
  induction calls generalizing s s' with
  | nil => rfl
  | cons called calls ih =>
    obtain ⟨reading, call⟩ := called
    simp only [history, asking]
    by_cases hhit : (record (some g) S C reading call s).isHit g C = true
    · rw [List.filter_cons_of_neg (by simp [hhit])]
      exact ih ((store_of_isHit hhit).trans hstore)
    · have hmiss := Bool.eq_false_iff.2 hhit
      have houtcome := outcome_eq hstore hmiss
      rw [List.filter_cons_of_pos (by simp [hmiss])]
      exact congrArg₂ List.cons houtcome (ih (congrArg Prod.snd houtcome))

/-- A store whose lists change nothing. -/
def ReadsLists (S : AnyStore ρ σ) : Prop :=
  ∀ reading q store, (S.perform reading (.list q) store).2 = store

/-- Then a list that is found leaves it as it would have left itself. -/
theorem store_record (hlists : ReadsLists S) (call : StoreCall) {s s' : Scene σ κ}
    (hstore : s.store = s'.store) :
    (record (some g) S C reading call s).after.store
      = (record none S C reading call s').after.store := by
  cases hhit : (record (some g) S C reading call s).isHit g C with
  | false => exact congrArg Prod.snd (outcome_eq hstore hhit)
  | true =>
    cases call with
    | list q =>
      have halone : (record none S C reading (.list q) s').after.store
          = (S.perform reading (.list q.normalized) s'.store).2 := rfl
      rw [store_of_isHit hhit, halone, hlists, hstore]
    | _ => cases hhit

theorem stores_history (hlists : ReadsLists S) (g : Caching) (calls : List (ρ × StoreCall))
    {s s' : Scene σ κ} (hstore : s.store = s'.store) :
    (history (some g) S C calls s).map (fun r => r.after.store)
      = (history none S C calls s').map fun r => r.after.store := by
  induction calls generalizing s s' with
  | nil => rfl
  | cons called calls ih =>
    obtain ⟨reading, call⟩ := called
    have hafter : (record (some g) S C reading call s).after.store
        = (record none S C reading call s').after.store := store_record hlists call hstore
    simp only [history, List.map_cons, hafter]
    rw [ih hafter]

/-- No cache does harm to any call of a history. With the same readings the calls that ask the store
are answered, and leave it, as without a cache and without the lists that were found. If the lists
of the store change nothing, it goes through the states that it goes through without the cache. -/
theorem harmless_history (g : Caching) (S : AnyStore ρ σ) (C : AnyCache κ)
    (calls : List (ρ × StoreCall)) (s : Scene σ κ) :
    (∀ r ∈ history (some g) S C calls s, Harmless g S C r)
    ∧ (asking g C (history (some g) S C calls s)).map Record.outcome
      = (history none S C ((asking g C (history (some g) S C calls s)).map Record.called) s).map
          Record.outcome
    ∧ (ReadsLists S → (history (some g) S C calls s).map (fun r => r.after.store)
      = (history none S C calls s).map fun r => r.after.store) := by
  refine ⟨?_, asking_history g calls rfl, fun hlists => stores_history hlists g calls rfl⟩
  induction calls generalizing s with
  | nil => simp [history]
  | cons called calls ih =>
    obtain ⟨reading, call⟩ := called
    intro r hr
    rcases List.mem_cons.1 hr with rfl | hr
    · exact harmless_call g S C reading call s
    · exact ih _ r hr

theorem readsLists_memoryStore : ReadsLists memoryStore := fun _ _ _ => rfl

/-- A cache that holds nothing but a text that is no list, and never ends any other call. -/
def brokenCache : AnyCache Unit where
  perform
    | _, _, .get _, () => (.ends 0 (.ok (some "?")), ())
    | _, _, _, () => (.stalls, ())

/-- A task is created and then listed. -/
def createAndList : List (Reading × StoreCall) :=
  let reading : Reading := ⟨Instant.ofUnixNanos 0, "a"⟩
  [(reading, .create { title := "x" }), (reading, .list Query.default)]

/-- Beside a broken cache both calls are answered, each after one call of the cache has run out of
time. -/
theorem harmless_brokenCache :
    let s : Scene Table Unit := { store := .empty, cache := () }
    let calls := history (some ⟨60000, 500⟩) memoryStore brokenCache createAndList s
    (∀ r ∈ calls, Harmless ⟨60000, 500⟩ memoryStore brokenCache r)
      ∧ calls.map (fun r => r.after.store)
        = (history none memoryStore brokenCache createAndList s).map (fun r => r.after.store)
      ∧ calls.map (fun r => r.after.timer) = [500, 1000] := by
  intro s calls
  obtain ⟨hharmless, -, hstores⟩ :=
    harmless_history ⟨60000, 500⟩ memoryStore brokenCache createAndList s
  exact ⟨hharmless, hstores readsLists_memoryStore, by decide +kernel⟩

/-! ## A store that can tell -/

/-- The store of tasks in memory, with the number of lists that it has been asked for. -/
def countingStore : AnyStore Reading (Table × Nat) where
  perform reading call := fun (table, lists) =>
    let (reply, table) := Table.perform reading.now reading.freshId call table
    (reply, table, if call.kind = .list then lists + 1 else lists)
  delay _ _ _ := 0

/-- The cache in memory. -/
def memoryCache : AnyCache MemoryCache where
  perform timer _ call cache :=
    let (answer, cache) := MemoryCache.perform timer call cache
    (.ends 0 (.ok answer), cache)

/-- The same list twice. -/
def listTwice : List (Reading × StoreCall) :=
  let reading : Reading := ⟨Instant.ofUnixNanos 0, "a"⟩
  [(reading, .list Query.default), (reading, .list Query.default)]

/-- It is not so that every store goes through the same states with a cache and without one: of two
lists that are the same the second is found in the cache, and the store is asked for one. -/
theorem not_always_same_states :
    ¬ ∀ (g : Caching) (S : AnyStore Reading (Table × Nat)) (C : AnyCache MemoryCache)
      (calls : List (Reading × StoreCall)) (s : Scene (Table × Nat) MemoryCache),
      (history (some g) S C calls s).map (fun r => r.after.store)
        = (history none S C calls s).map fun r => r.after.store := by
  intro hall
  let s : Scene (Table × Nat) MemoryCache := { store := (.empty, 0), cache := .empty }
  have hcached : (history (some ⟨60000, 500⟩) countingStore memoryCache listTwice s).map
      (fun r => r.after.store.2) = [1, 1] := by decide +kernel
  have halone : (history none countingStore memoryCache listTwice s).map
      (fun r => r.after.store.2) = [1, 2] := by decide +kernel
  have hsame := hall ⟨60000, 500⟩ countingStore memoryCache listTwice s
  have hlists := congrArg (List.map Prod.snd) hsame
  rw [List.map_map, List.map_map] at hlists
  cases hcached.symm.trans (hlists.trans halone)

end TaskBoard.Caching
