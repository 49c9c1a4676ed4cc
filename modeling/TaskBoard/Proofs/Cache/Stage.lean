import TaskBoard.Proofs.Cache.Key
import TaskBoard.Proofs.Run.Pool
import TaskBoard.Proofs.Task.RoundTrip

/-!
# Where a call of the cached store can be

`Stage` lists the places in a call of the cached store at which it can be kept waiting, and
`Cached known` says of a cache that every list in it is one that is known. Between them they hold
what is known of lists on their way from the store through the cache to a caller.

* `Stage.after_store`, `Stage.after_cache`: an answer leads from one stage to the next;
* `Stage.asks_cache`: the cache calls that are made;
* `Stage.flushes_of_write`: a call that has changed the stored tasks is about to flush;
* `Cached.of_perform`: what is known of a cache after a call;
* `Cached.of_hit`: a list that is found in the cache is known;
* `step_of_hit`, `step_of_miss`: what becomes of a list that is looked for.
-/

namespace TaskBoard

open Run

namespace Caching

variable {g : Caching}

/-! ## The calls on the way -/

/-- What a call that is no list does when the store has answered: if tasks have changed it flushes
the lists. -/
def afterStore (g : Caching) (call : StoreCall) (reply : call.Reply) : Operation call.Reply :=
  if call.changes reply then
    .cache g.opTimeout (.invalidate listKeyPrefix) fun _ => .done reply
  else .done reply

/-- A call is a list, or it asks the store first. -/
theorem perform_cases (g : Caching) (call : StoreCall) :
    (∃ q, call = .list q) ∨ (∀ q, call ≠ .list q)
      ∧ perform (some g) call = .store call (g.afterStore call) := by
  cases call with
  | list q => exact Or.inl ⟨q, rfl⟩
  | create draft =>
    refine Or.inr ⟨by simp, congrArg (Operation.store _) (funext fun reply => ?_)⟩
    cases reply <;> rfl
  | update task =>
    refine Or.inr ⟨by simp, congrArg (Operation.store _) (funext fun reply => ?_)⟩
    cases reply <;> rfl
  | delete id =>
    refine Or.inr ⟨by simp, congrArg (Operation.store _) (funext fun reply => ?_)⟩
    rcases reply with e | _ | _ <;> rfl
  | get id => exact Or.inr ⟨by simp, rfl⟩
  | count => exact Or.inr ⟨by simp, rfl⟩
  | countFiltered f => exact Or.inr ⟨by simp, rfl⟩

/-- Where a call of the cached store can be. A list that is on its way into the cache is `read`, a
list that is returned is `shown`. -/
inductive Stage (g : Caching) (read shown : Query → List Task → Prop) :
    (call : StoreCall) → Operation call.Reply → Prop where
  | starts (call : StoreCall) : Stage g read shown call (perform (some g) call)
  | reads (q : Query) : Stage g read shown (.list q) (g.readThrough q.normalized)
  | fills {q : Query} {tasks : List Task} (hread : read q.normalized tasks) :
      Stage g read shown (.list q)
        (.cache g.opTimeout (.set q.normalized.cacheKey (encode tasks) g.ttl)
          fun _ => .done (.ok tasks))
  | flushes {call : StoreCall} (hcall : call.writes = true) (reply : call.Reply) :
      Stage g read shown call
        (.cache g.opTimeout (.invalidate listKeyPrefix) fun _ => .done reply)
  | lists {q : Query} {tasks : List Task} (hshown : shown q.normalized tasks) :
      Stage g read shown (.list q) (.done (.ok tasks))
  | fails {call : StoreCall} (e : TaskError) : Stage g read shown call (.done (.error e))
  | ends {call : StoreCall} (hcall : ∀ q, call ≠ .list q) (reply : call.Reply) :
      Stage g read shown call (.done reply)

/-- An answer of the store that is a list for a query. -/
inductive Lists : (call : StoreCall) → call.Reply → Query → List Task → Prop where
  | mk (q : Query) (tasks : List Task) : Lists (.list q) (.ok tasks) q tasks

/-- An answer of the cache that is a list for a query. -/
inductive Hits : (call : CacheCall) → call.Reply → Query → List Task → Prop where
  | mk {q : Query} {text : String} {tasks : List Task} (hdecode : decode? text = some tasks) :
      Hits (.get q.cacheKey) (.ok (some text)) q tasks

namespace Stage

variable {read shown read' shown' : Query → List Task → Prop} {call : StoreCall}

theorem mono (h : Stage g read shown call op) (hread : ∀ q tasks, read q tasks → read' q tasks)
    (hshown : ∀ q tasks, shown q tasks → shown' q tasks) : Stage g read' shown' call op := by
  cases h with
  | starts => exact .starts call
  | reads q => exact .reads q
  | fills h => exact .fills (hread _ _ h)
  | flushes hcall reply => exact .flushes hcall reply
  | lists h => exact .lists (hshown _ _ h)
  | fails e => exact .fails e
  | ends hcall reply => exact .ends hcall reply

/-- After an answer of the store a list is read and goes on to the cache; a write that has been
done goes on to the flush. -/
theorem after_store {asked : StoreCall} {next : asked.Reply → Operation call.Reply}
    (h : Stage g read shown call (.store asked next)) (reply : asked.Reply)
    (hread : ∀ q tasks, Lists asked reply q tasks → read' q tasks) :
    Stage g read' shown' call (next reply) := by
  generalize hop : Operation.store asked next = op at h
  cases h with
  | starts =>
    rcases perform_cases g call with ⟨q, rfl⟩ | ⟨hcall, hperform⟩
    · cases hop
    · rw [hperform] at hop
      cases hop
      unfold afterStore
      by_cases hchanges : call.changes reply = true
      · rw [if_pos hchanges]
        exact .flushes (StoreCall.writes_of_changes hchanges) reply
      · rw [if_neg hchanges]
        exact .ends hcall reply
  | reads q =>
    cases hop
    cases reply with
    | error e => exact .fails e
    | ok tasks => exact .fills (hread _ _ (.mk q.normalized tasks))
  | fills h => cases hop
  | flushes hcall reply => cases hop
  | lists h => cases hop
  | fails e => cases hop
  | ends hcall reply => cases hop

/-- After an answer of the cache a list is found or still to be read, a list that has been read is
returned whatever the answer, and so is the result of a write. -/
theorem after_cache {limit : Nat} {asked : CacheCall}
    {next : asked.Reply → Operation call.Reply}
    (h : Stage g read shown call (.cache limit asked next)) (reply : asked.Reply)
    (hread : ∀ q tasks, asked = .set q.cacheKey (encode tasks) g.ttl → read q tasks →
      shown' q tasks)
    (hhit : ∀ q tasks, Hits asked reply q tasks → shown' q tasks) :
    Stage g read' shown' call (next reply) := by
  generalize hop : Operation.cache limit asked next = op at h
  cases h with
  | starts =>
    rcases perform_cases g call with ⟨q, rfl⟩ | ⟨-, hperform⟩
    · cases hop
      rcases reply with e | _ | text
      · exact .reads q
      · exact .reads q
      · -- a text that cannot be read is as good as none
        simp only
        split
        · rename_i tasks hdecode
          exact .lists (hhit _ _ (.mk hdecode))
        · exact .reads q
    · rw [hperform] at hop
      cases hop
  | reads q => cases hop
  | fills h =>
    cases hop
    exact .lists (hread _ _ rfl h)
  | flushes hcall value =>
    cases hop
    refine .ends (fun q hq => ?_) value
    rw [hq] at hcall
    cases hcall
  | lists h => cases hop
  | fails e => cases hop
  | ends hcall value => cases hop

/-- The cache is asked for the list of a query, told a list that has been read, or flushed. -/
theorem asks_cache {limit : Nat} {asked : CacheCall} {next : asked.Reply → Operation call.Reply}
    (h : Stage g read shown call (.cache limit asked next)) :
    limit = g.opTimeout ∧ ((∃ q : Query, asked = .get q.cacheKey)
      ∨ (∃ q tasks, asked = .set q.cacheKey (encode tasks) g.ttl ∧ read q tasks)
      ∨ (asked = .invalidate listKeyPrefix ∧ call.writes = true)) := by
  generalize hop : Operation.cache limit asked next = op at h
  cases h with
  | starts =>
    rcases perform_cases g call with ⟨q, rfl⟩ | ⟨-, hperform⟩
    · cases hop
      exact ⟨rfl, Or.inl ⟨q.normalized, rfl⟩⟩
    · rw [hperform] at hop
      cases hop
  | reads q => cases hop
  | fills h =>
    cases hop
    exact ⟨rfl, Or.inr (Or.inl ⟨_, _, rfl, h⟩)⟩
  | flushes hcall value =>
    cases hop
    exact ⟨rfl, Or.inr (Or.inr ⟨rfl, hcall⟩)⟩
  | lists h => cases hop
  | fails e => cases hop
  | ends hcall value => cases hop

/-- Calls of the cached store do not touch the gauge. -/
theorem not_gauge {change : GaugeChange} {next : Operation call.Reply} :
    ¬ Stage g read shown call (.gauge change next) := by
  intro h
  generalize hop : Operation.gauge change next = op at h
  cases h with
  | starts =>
    rcases perform_cases g call with ⟨q, rfl⟩ | ⟨-, hperform⟩
    · cases hop
    · rw [hperform] at hop
      cases hop
  | reads q => cases hop
  | fills h => cases hop
  | flushes hcall value => cases hop
  | lists h => cases hop
  | fails e => cases hop
  | ends hcall value => cases hop

/-- A call that has changed the stored tasks goes on to the flush. -/
theorem flushes_of_write {asked : StoreCall} {next : asked.Reply → Operation call.Reply}
    {c : Conditions} {w w' : World} {reply : asked.Reply}
    (h : Stage g read shown call (.store asked next)) (hanswer : StoreAnswers c asked w reply w') :
    w'.table = w.table ∨ ∃ value, next reply
      = .cache g.opTimeout (.invalidate listKeyPrefix) fun _ => .done value := by
  cases hanswer with
  | fails e => exact Or.inl rfl
  | performs =>
    generalize hop : Operation.store asked next = op at h
    cases h with
    | starts =>
      rcases perform_cases g call with ⟨q, rfl⟩ | ⟨-, hperform⟩
      · cases hop
      · rw [hperform] at hop
        cases hop
        by_cases hchanges : call.changes (w.performStore c call).1 = true
        · exact Or.inr ⟨_, if_pos hchanges⟩
        · exact Or.inl (Table.perform_of_not_changes (Bool.eq_false_iff.2 hchanges))
    | reads q =>
      cases hop
      exact Or.inl (World.table_performStore rfl w)
    | fills h => cases hop
    | flushes hcall reply => cases hop
    | lists h => cases hop
    | fails e => cases hop
    | ends hcall reply => cases hop

/-- A list that is returned is shown. -/
theorem of_done {q : Query} {tasks : List Task}
    (h : Stage g read shown (.list q) (.done (.ok tasks))) : shown q.normalized tasks := by
  generalize hop : (Operation.done (.ok tasks) : Operation (StoreCall.list q).Reply) = op at h
  cases h with
  | starts => cases hop
  | reads => cases hop
  | fills h => cases hop
  | flushes hcall value => cases hop
  | lists h =>
    cases hop
    exact h
  | fails e => cases hop
  | ends hcall value => exact absurd rfl (hcall q)

end Stage

/-! ## What is in the cache -/

/-- Every cached list is known for its query, with the time at which it expires. -/
def Cached (known : Query → List Task → Nat → Prop) (cache : MemoryCache) : Prop :=
  ∀ key e, cache.get? key = some e → MemoryCache.startsWith listKeyPrefix key = true →
    ∃ q tasks, key = q.cacheKey ∧ e.value = encode tasks ∧ known q tasks e.expires

/-- No list is cached. -/
def NoLists (cache : MemoryCache) : Prop :=
  ∀ key e, cache.get? key = some e → MemoryCache.startsWith listKeyPrefix key = false

theorem NoLists.cached {known : Query → List Task → Nat → Prop} {cache : MemoryCache}
    (h : NoLists cache) : Cached known cache := by
  intro key e he hkey
  rw [h key e he] at hkey
  cases hkey

theorem noLists_empty : NoLists .empty := by
  intro key e he
  cases he

/-- Where no list is cached, none is found. -/
theorem NoLists.get_eq {cache : MemoryCache} (h : NoLists cache) (now : Nat) (q : Query) :
    cache.get now q.cacheKey = (none, cache) := by
  have hnone : cache.get? q.cacheKey = none := by
    refine Option.eq_none_iff_forall_ne_some.2 fun e he => ?_
    have hkey := h _ e he
    rw [q.startsWith_cacheKey] at hkey
    cases hkey
  rw [MemoryCache.get, hnone]

/-- A flush leaves no list. -/
theorem noLists_invalidate (cache : MemoryCache) :
    NoLists (cache.invalidate listKeyPrefix).2 := by
  intro key e he
  simp only [MemoryCache.invalidate, Keyed.get?_filter] at he
  simpa using (Option.filter_eq_some_iff.1 he).2

namespace Cached

variable {known known' : Query → List Task → Nat → Prop} {cache : MemoryCache}

theorem mono (h : Cached known cache) (hknown : ∀ q tasks t, known q tasks t → known' q tasks t) :
    Cached known' cache := by
  intro key e he hkey
  obtain ⟨q, tasks, hq, htasks, hk⟩ := h key e he hkey
  exact ⟨q, tasks, hq, htasks, hknown _ _ _ hk⟩

/-- Without some of its entries a cache holds nothing new. -/
theorem filter (h : Cached known cache) (keep : String → CacheEntry → Bool) :
    Cached known (cache.filter keep) := by
  intro key e he hkey
  rw [Keyed.get?_filter] at he
  exact h key e (Option.filter_eq_some_iff.1 he).1 hkey

/-- After a call a cache holds what is known, if a list that was put there is. -/
theorem of_perform (h : Cached known cache) (now : Nat) (asked : CacheCall)
    (hset : ∀ key value ttl, asked = .set key value ttl →
      ∃ q tasks, key = q.cacheKey ∧ value = encode tasks ∧ known q tasks (now + ttl)) :
    Cached known (MemoryCache.perform now asked cache).2 := by
  cases asked with
  | get key =>
    simp only [MemoryCache.perform, MemoryCache.get]
    split
    · split
      · exact h
      · exact h.filter _
    · exact h
  | set key value ttl =>
    obtain ⟨q, tasks, hq, htasks, hknown⟩ := hset key value ttl rfl
    intro k e he hk
    simp only [MemoryCache.perform, MemoryCache.set, Keyed.get?_insert] at he
    by_cases hkey : k = key
    · rw [if_pos hkey] at he
      obtain rfl := Option.some.inj he
      exact ⟨q, tasks, hkey.trans hq, htasks, hknown⟩
    · rw [if_neg hkey] at he
      exact h.filter _ k e he hk
  | invalidate start => exact h.filter _

/-- A list that is found in the cache is known, and has not expired. -/
theorem of_hit (h : Cached known cache) {now : Nat} {q : Query} {text : String}
    {tasks : List Task} (hget : (cache.get now q.cacheKey).1 = some text)
    (hdecode : decode? text = some tasks) : ∃ t, known q tasks t ∧ now < t := by
  unfold MemoryCache.get at hget
  split at hget
  · rename_i e he
    split at hget
    · rename_i hlive
      obtain ⟨r, kept, hr, hkept, hknown⟩ := h _ e he q.startsWith_cacheKey
      obtain rfl := Query.cacheKey_inj hr
      have htext : e.value = text := Option.some.inj hget
      rw [← htext, hkept, decode?_encode] at hdecode
      obtain rfl := Option.some.inj hdecode
      exact ⟨e.expires, hknown, hlive⟩
    · cases hget
  · cases hget

end Cached

/-! ## Looking for a list -/

section Looking

variable {c : Conditions} {w : World} {q : Query} {since : Nat}

/-- A `get` that leaves the cache as it is leaves everything as it is. -/
theorem answers_get {key : String} {found : Option String}
    (hget : w.cache.get w.timer key = (found, w.cache)) :
    CacheAnswers (.get key) w (.ok found) w := by
  have hperform : w.performCache (.get key) = (found, w) := by
    change ((w.cache.get w.timer key).1,
      ({ w with cache := (w.cache.get w.timer key).2 } : World)) = _
    rw [hget]
  have hanswer : CacheAnswers (.get key) w _ _ := .performs
  rw [hperform] at hanswer
  exact hanswer

/-- A list that is in the cache is found there. -/
theorem step_of_hit {tasks : List Task}
    (hget : w.cache.get w.timer q.normalized.cacheKey = (some (encode tasks), w.cache)) :
    Step (perform (some g)) c ⟨w, [⟨.list q, perform (some g) (.list q), since⟩]⟩
      (.cache (.list q) (.get q.normalized.cacheKey) (.ok (some (encode tasks))) w.timer
        (.done (.ok tasks)))
      ⟨w, [⟨.list q, .done (.ok tasks), w.timer⟩]⟩ := by
  have hstep : Step (perform (some g)) c ⟨w, [⟨.list q, perform (some g) (.list q), since⟩]⟩ _ _ :=
    .cache (l := []) (answers_get hget)
  simp only [decode?_encode] at hstep
  exact hstep

/-- Where no list is cached, the store is to be asked for it. -/
theorem step_of_miss (hcache : NoLists w.cache) :
    Step (perform (some g)) c ⟨w, [⟨.list q, perform (some g) (.list q), since⟩]⟩
      (.cache (.list q) (.get q.normalized.cacheKey) (.ok none) w.timer
        (g.readThrough q.normalized))
      ⟨w, [⟨.list q, g.readThrough q.normalized, w.timer⟩]⟩ :=
  .cache (l := []) (answers_get (hcache.get_eq w.timer q.normalized))

end Looking

end Caching

end TaskBoard
