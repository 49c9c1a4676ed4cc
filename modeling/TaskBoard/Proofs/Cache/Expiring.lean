import Mathlib.Data.List.Induction
import TaskBoard.Cache.Memory
import TaskBoard.Proofs.Keyed

/-!
# The in-memory cache as an expiring map

What the cache tells of a key is decided by the history of its uses alone: by the last `set` of the
key, if nothing has flushed it since and its time is not over. Expired entries are dropped at
different moments, by a `get` of their key and by any `set`; a cache that never drops them answers
the same, as long as the clock does not go back.

* `get?_plainAfter`, `get?_written_iff`: the cache that never drops anything holds the last sets;
* `Agree.after`, `agree_held`: on live entries the two caches agree, after a step and after a run;
* `expiring_map`: what `get` and the number of live entries tell, and what a `set` leaves.
-/

namespace TaskBoard

namespace MemoryCache

/-- A use of the cache: a call, or a look at the number of its live entries. -/
inductive Use where
  | call (call : CacheCall)
  | count

/-- Uses with their times. -/
abbrev History := List (Nat × Use)

/-- The cache after a use. -/
def after (now : Nat) : Use → MemoryCache → MemoryCache
  | .call call, c => (c.perform now call).2
  | .count, c => c

/-- The cache after a use that drops nothing for being expired. -/
def plainAfter (now : Nat) : Use → MemoryCache → MemoryCache
  | .call (.get _), c => c
  | .call (.set key value ttl), c => c.insert key ⟨value, now + ttl⟩
  | .call (.invalidate start), c => c.filter fun key _ => !startsWith start key
  | .count, c => c

/-- The cache after a history that began without entries. -/
def held (history : History) : MemoryCache :=
  history.foldl (fun c (now, use) => after now use c) .empty

/-- The cache after the history if nothing had been dropped for being expired. -/
def written (history : History) : MemoryCache :=
  history.foldl (fun c (now, use) => plainAfter now use c) .empty

/-- Whether the use puts an end to what the key had before. -/
def Use.Ends (key : String) : Use → Prop
  | .call (.get _) => False
  | .call (.set k _ _) => k = key
  | .call (.invalidate start) => start.toList <+: key.toList
  | .count => False

/-- The key was last set at time `s`, and no prefix of it has been flushed since. -/
def LastSet (history : History) (key value : String) (s ttl : Nat) : Prop :=
  ∃ before later, history = before ++ (s, .call (.set key value ttl)) :: later
    ∧ ∀ e ∈ later, ¬ e.2.Ends key

/-- The key was last set to this text, and its time is not over at time `t`. -/
def Stored (history : History) (t : Nat) (key value : String) : Prop :=
  ∃ s ttl, LastSet history key value s ttl ∧ t < s + ttl

/-- The times do not go back, and `t` is not before them. -/
def InOrder (history : History) (t : Nat) : Prop :=
  (history.map Prod.fst).Pairwise (· ≤ ·) ∧ ∀ e ∈ history, e.1 ≤ t

variable {history : History} {key value : String} {now s t ttl : Nat} {use : Use}
  {c c' : MemoryCache} {e : CacheEntry}

@[simp] theorem held_snoc : held (history ++ [(now, use)]) = after now use (held history) := by
  simp [held]

@[simp] theorem written_snoc :
    written (history ++ [(now, use)]) = plainAfter now use (written history) := by
  simp [written]

theorem startsWith_iff {start : String} : startsWith start key = true ↔
    start.toList <+: key.toList :=
  List.isPrefixOf_iff_prefix

/-! ## The last set of a key -/

/-- The last use is the last set of a key, or it does not end what was the last set before. -/
theorem lastSet_snoc : LastSet (history ++ [(now, use)]) key value s ttl ↔
    (now = s ∧ use = .call (.set key value ttl))
    ∨ (¬ use.Ends key ∧ LastSet history key value s ttl) := by
  constructor
  · rintro ⟨before, later, heq, hlater⟩
    rcases List.eq_nil_or_concat later with rfl | ⟨later, last, rfl⟩
    · obtain ⟨-, hlast⟩ := List.append_inj' heq rfl
      cases hlast
      exact Or.inl ⟨rfl, rfl⟩
    · have heq : history ++ [(now, use)]
          = (before ++ (s, .call (.set key value ttl)) :: later) ++ [last] := by
        simpa using heq
      obtain ⟨hhistory, hlast⟩ := List.append_inj' heq rfl
      cases hlast
      exact Or.inr ⟨hlater (now, use) (by simp), before, later, hhistory,
        fun e he => hlater e (by simp [he])⟩
  · rintro (⟨rfl, rfl⟩ | ⟨hends, before, later, rfl, hlater⟩)
    · exact ⟨history, [], rfl, by simp⟩
    · refine ⟨before, later ++ [(now, use)], by simp, fun e he => ?_⟩
      rcases List.mem_append.1 he with he | he
      · exact hlater e he
      · rw [List.mem_singleton.1 he]
        exact hends

/-- What a use leaves of a key if it drops nothing for being expired. -/
theorem get?_plainAfter : (plainAfter now use c).get? key = some e ↔
    (∃ value ttl, use = .call (.set key value ttl) ∧ e = ⟨value, now + ttl⟩)
    ∨ (¬ use.Ends key ∧ c.get? key = some e) := by
  cases use with
  | count => simp [plainAfter, Use.Ends]
  | call call =>
    cases call with
    | get k => simp [plainAfter, Use.Ends]
    | set k value ttl =>
      by_cases hk : key = k
      · subst hk
        simp only [plainAfter, Use.Ends, Keyed.get?_insert, if_true, Option.some_inj,
          Use.call.injEq, CacheCall.set.injEq, true_and, not_true, false_and, or_false]
        constructor
        · rintro rfl
          exact ⟨value, ttl, ⟨rfl, rfl⟩, rfl⟩
        · rintro ⟨_, _, ⟨rfl, rfl⟩, rfl⟩
          rfl
      · simp [plainAfter, Use.Ends, hk, Ne.symm hk]
    | invalidate start =>
      simp [plainAfter, Use.Ends, Keyed.get?_filter, Option.filter_eq_some_iff, ← startsWith_iff,
        and_comm]

/-- The cache that drops nothing for being expired holds the last set of each key. -/
theorem get?_written_iff : (written history).get? key = some e ↔
    ∃ s value ttl, LastSet history key value s ttl ∧ e = ⟨value, s + ttl⟩ := by
  induction history using List.reverseRecOn with
  | nil => simp [written, LastSet]
  | append_singleton history last ih =>
    obtain ⟨now, use⟩ := last
    simp only [written_snoc, get?_plainAfter, ih, lastSet_snoc]
    constructor
    · rintro (⟨value, ttl, huse, he⟩ | ⟨hends, s, value, ttl, hlast, he⟩)
      · exact ⟨now, value, ttl, Or.inl ⟨rfl, huse⟩, he⟩
      · exact ⟨s, value, ttl, Or.inr ⟨hends, hlast⟩, he⟩
    · rintro ⟨s, value, ttl, ⟨rfl, huse⟩ | ⟨hends, hlast⟩, he⟩
      · exact Or.inl ⟨value, ttl, huse, he⟩
      · exact Or.inr ⟨hends, s, value, ttl, hlast, he⟩

/-! ## Entries that are live -/

/-- The key has an entry that is live at time `t`. -/
def Live (t : Nat) (c : MemoryCache) (key : String) (e : CacheEntry) : Prop :=
  c.get? key = some e ∧ t < e.expires

/-- The two caches have the same live entries at time `t`. -/
def Agree (t : Nat) (c c' : MemoryCache) : Prop := ∀ key e, Live t c key e ↔ Live t c' key e

/-- What is live later is live now. -/
theorem Agree.later (h : Agree s c c') (hst : s ≤ t) : Agree t c c' := by
  intro key e
  constructor
  · rintro ⟨hget, hlive⟩
    exact ⟨((h key e).1 ⟨hget, by omega⟩).1, hlive⟩
  · rintro ⟨hget, hlive⟩
    exact ⟨((h key e).2 ⟨hget, by omega⟩).1, hlive⟩

/-- Dropping what is expired does nothing to what is live. -/
theorem live_after : Live now (after now use c) key e ↔ Live now (plainAfter now use c) key e := by
  cases use with
  | count => rfl
  | call call =>
    cases call with
    | get k =>
      simp only [Live, after, plainAfter, perform, get]
      cases hk : c.get? k with
      | none => rfl
      | some old =>
        by_cases hlive : now < old.expires
        · simp [hlive]
        · -- only the entry of `k` is dropped, and it is not live
          simp only [hlive, if_false, Keyed.get?_erase]
          by_cases hkey : key = k
          · subst hkey
            simp only [if_true, hk, reduceCtorEq, false_and, false_iff]
            rintro ⟨hsome, he⟩
            cases hsome
            exact hlive he
          · simp [hkey]
    | set k value ttl =>
      simp only [Live, after, plainAfter, perform, set, Keyed.get?_insert]
      by_cases hkey : key = k
      · simp [hkey]
      · simp only [hkey, if_false, Keyed.get?_filter, Option.filter_eq_some_iff, decide_eq_true_eq,
          and_assoc, and_self]
    | invalidate start => rfl

/-- Caches with the same live entries have the same live entries after a use. -/
theorem Agree.after (h : Agree now c c') :
    Agree now (after now use c) (plainAfter now use c') := by
  intro key e
  rw [live_after]
  have hkey := h key e
  simp only [Live] at hkey ⊢
  simp only [get?_plainAfter, or_and_right, and_assoc, hkey]

/-- After a history whose times do not go back the live entries are those that there would be if
nothing had been dropped. -/
theorem agree_held (horder : InOrder history t) : Agree t (held history) (written history) := by
  induction history using List.reverseRecOn generalizing t with
  | nil => exact fun _ _ => Iff.rfl
  | append_singleton history last ih =>
    obtain ⟨now, use⟩ := last
    obtain ⟨hpairwise, hle⟩ := horder
    rw [List.map_append, List.pairwise_append] at hpairwise
    obtain ⟨hbefore, -, hlast⟩ := hpairwise
    have hagree : Agree now (held history) (written history) := by
      refine ih ⟨hbefore, fun e he => ?_⟩
      exact hlast e.1 (List.mem_map_of_mem he) now (by simp)
    rw [held_snoc, written_snoc]
    exact hagree.after.later (hle (now, use) (by simp))

/-! ## What can be observed -/

/-- A text is got if the entry is live. -/
theorem get_eq_some_iff : (c.get t key).1 = some value ↔ ∃ e, Live t c key e ∧ e.value = value := by
  unfold Live get
  cases hget : c.get? key with
  | none => simp
  | some e =>
    simp only [Option.some_inj]
    constructor
    · intro h
      split at h
      · exact ⟨e, ⟨rfl, by assumption⟩, Option.some.inj h⟩
      · cases h
    · rintro ⟨_, ⟨rfl, hlive⟩, rfl⟩
      rw [if_pos hlive]

/-- The number of live entries is that of the keys which have one. -/
theorem liveCount_eq : ∃ keys : List String, keys.Nodup
    ∧ (∀ key, key ∈ keys ↔ ∃ e, Live t c key e) ∧ c.liveCount t = keys.length := by
  let live := c.filter fun _ e => t < e.expires
  refine ⟨live.entries.map Prod.fst, live.nodup, fun key => ?_, (List.length_map ..).symm⟩
  have hget : ∀ e, live.get? key = some e ↔ Live t c key e := by
    simp [live, Live, Keyed.get?_filter, Option.filter_eq_some_iff]
  simp only [← Keyed.contains_iff_mem, Keyed.contains, Option.isSome_iff_exists, hget]

/-- Caches with the same live entries have the same number of them. -/
theorem Agree.liveCount_eq (h : Agree t c c') : c.liveCount t = c'.liveCount t := by
  obtain ⟨keys, hnodup, hkeys, hcount⟩ := MemoryCache.liveCount_eq (t := t) (c := c)
  obtain ⟨keys', hnodup', hkeys', hcount'⟩ := MemoryCache.liveCount_eq (t := t) (c := c')
  have hperm : keys.Perm keys' := by
    refine (List.perm_ext_iff_of_nodup hnodup hnodup').2 fun key => ?_
    simp only [hkeys, hkeys', h key]
  rw [hcount, hcount', hperm.length_eq]

/-- After a history the live entries are the last sets whose time is not over. -/
theorem live_held_iff (horder : InOrder history t) :
    (∃ e, Live t (held history) key e ∧ e.value = value) ↔ Stored history t key value := by
  simp only [agree_held horder key]
  simp only [Live, get?_written_iff, Stored]
  constructor
  · rintro ⟨e, ⟨⟨s, v, ttl, hlast, rfl⟩, hlive⟩, rfl⟩
    exact ⟨s, ttl, hlast, hlive⟩
  · rintro ⟨s, ttl, hlast, hlive⟩
    exact ⟨⟨value, s + ttl⟩, ⟨⟨s, value, ttl, hlast, rfl⟩, hlive⟩, rfl⟩

/-- After a `set` nothing is held that is expired, except a text that was set for no time. -/
theorem live_of_set {k : String} (h : (c.set t key value ttl).get? k = some e) :
    t < e.expires ∨ k = key ∧ ttl = 0 := by
  rw [set, Keyed.get?_insert] at h
  by_cases hk : k = key
  · rw [if_pos hk] at h
    cases h
    rcases Nat.eq_zero_or_pos ttl with hzero | hpos
    · exact Or.inr ⟨hk, hzero⟩
    · exact Or.inl (Nat.lt_add_of_pos_right hpos)
  · rw [if_neg hk, Keyed.get?_filter, Option.filter_eq_some_iff] at h
    exact Or.inl (by simpa using h.2)

/-- The cache is an expiring map. After any history whose times do not go back, a `get` at time `t`
gives the text that the key was last set to, if its time is not over and no prefix of the key has
been flushed since, and the live entries are as many as the keys with such a text. Both are what
they would be if nothing had ever been dropped for being expired. And right after a `set` only that
text itself can be held expired, if it was set for no time. -/
theorem expiring_map (horder : InOrder history t) :
    (∀ key value, ((held history).get t key).1 = some value ↔ Stored history t key value)
    ∧ (∃ keys : List String, keys.Nodup ∧ (∀ key, key ∈ keys ↔ ∃ value, Stored history t key value)
      ∧ (held history).liveCount t = keys.length)
    ∧ (∀ key, ((held history).get t key).1 = ((written history).get t key).1)
    ∧ (held history).liveCount t = (written history).liveCount t
    ∧ ∀ key value ttl k e,
      (held (history ++ [(t, .call (.set key value ttl))])).get? k = some e →
      t < e.expires ∨ k = key ∧ ttl = 0 := by
  refine ⟨fun key value => ?_, ?_, fun key => ?_, (agree_held horder).liveCount_eq, ?_⟩
  · rw [get_eq_some_iff, live_held_iff horder]
  · obtain ⟨keys, hnodup, hkeys, hcount⟩ := liveCount_eq (t := t) (c := held history)
    refine ⟨keys, hnodup, fun key => ?_, hcount⟩
    simp only [hkeys, ← live_held_iff horder]
    exact ⟨fun ⟨e, he⟩ => ⟨e.value, e, he, rfl⟩, fun ⟨_, e, he, _⟩ => ⟨e, he⟩⟩
  · refine Option.ext fun value => ?_
    simp only [get_eq_some_iff, agree_held horder key]
  · intro key value ttl k e h
    rw [held_snoc] at h
    exact live_of_set h

/-- At the time 15 the text of one key is over, that of another has been flushed, and a third one is
still stored. -/
theorem expiring_map_at_fifteen :
    let history : History := [(0, .call (.set "a" "x" 15)), (5, .call (.set "ab" "y" 100)),
      (5, .call (.set "b" "z" 100)), (15, .call (.invalidate "ab")), (15, .count)]
    InOrder history 15 ∧ Stored history 15 "b" "z" ∧ (¬ ∃ value, Stored history 15 "a" value)
    ∧ (¬ ∃ value, Stored history 15 "ab" value)
    ∧ ∃ keys : List String, keys.Nodup
      ∧ (∀ key, key ∈ keys ↔ ∃ value, Stored history 15 key value) ∧ keys.length = 1 := by
  intro history
  have horder : InOrder history 15 := by
    constructor
    · decide
    · simp [history]
  obtain ⟨hget, ⟨keys, hnodup, hkeys, hcount⟩, -⟩ := expiring_map horder
  have hnone : ∀ key, ((held history).get 15 key).1 = none →
      ¬ ∃ value, Stored history 15 key value := by
    rintro key hnone ⟨value, hstored⟩
    rw [(hget key value).2 hstored] at hnone
    cases hnone
  exact ⟨horder, (hget "b" "z").1 (by decide), hnone "a" (by decide), hnone "ab" (by decide),
    keys, hnodup, hkeys, by rw [← hcount]; decide⟩

end MemoryCache

end TaskBoard
