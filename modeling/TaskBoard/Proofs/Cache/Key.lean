import TaskBoard.Cache.Aside
import TaskBoard.Cache.Memory
import TaskBoard.Proofs.Json.Lexing
import TaskBoard.Proofs.Text.Numeral

/-!
# Keys tell queries apart

A key is read part by part: no part before the assignee has a colon in it, and the assignee is
either the word for none or a string that begins with its quote.

* `Query.cacheKey_inj`: queries with one key are one query;
* `Query.startsWith_cacheKey`: every key is among those that a flush drops;
* `Caching.usesEntry_list_iff`: a list uses the entry of its query's normal form and no other;
* `keys_apart_and_flushed`: lists share an entry just if their queries have one normal form, and a
  flush leaves none.
-/

namespace TaskBoard

open Text

/-- What stands before the first `a` is known if no `a` is in it. -/
theorem append_cons_inj {α : Type} {a : α} {xs ys us vs : List α} (hxs : a ∉ xs) (hys : a ∉ ys)
    (h : xs ++ a :: us = ys ++ a :: vs) : xs = ys ∧ us = vs := by
  induction xs generalizing ys with
  | nil =>
    cases ys with
    | nil => exact ⟨rfl, (List.cons.inj h).2⟩
    | cons y ys =>
      have hy : a = y := (List.cons.inj h).1
      exact absurd (by simp [hy]) hys
  | cons x xs ih =>
    cases ys with
    | nil =>
      have hx : x = a := (List.cons.inj h).1
      exact absurd (by simp [hx]) hxs
    | cons y ys =>
      obtain ⟨hx, htail⟩ := List.cons.inj h
      obtain ⟨hxy, huv⟩ := ih (fun hmem => hxs (by simp [hmem])) (fun hmem => hys (by simp [hmem]))
        htail
      exact ⟨by rw [hx, hxy], huv⟩

theorem colon_notMem_intDigits (i : Int) : ':' ∉ intDigits i := by
  intro hmem
  rcases isDigit_or_minus_of_mem_intDigits hmem with hdigit | hminus
  · exact absurd hdigit (by decide)
  · exact absurd hminus (by decide)

/-- The string that a JSON string holds is known from its text. -/
theorem Json.writeString_inj {s t : String} (h : writeString s = writeString t) : s = t := by
  have hs := (lexes_writeString s).tokens_eq
  rw [h, (lexes_writeString t).tokens_eq] at hs
  exact String.toList_inj.1 (by simpa using hs.symm)

namespace Query

/-- The text for a restriction to a completion. -/
def completedText (c : Option Bool) : List Char := c.elim anyWord Json.writeBool

/-- The text for a restriction to an assignee. -/
def assigneeText (a : Option String) : List Char := a.elim anyWord Json.writeString

theorem completedText_inj {c d : Option Bool} (h : completedText c = completedText d) : c = d := by
  rcases c with _ | _ | _ <;> rcases d with _ | _ | _
  case none.none | some.false.some.false | some.true.some.true => rfl
  all_goals exact absurd h (by decide)

theorem colon_notMem_completedText (c : Option Bool) : ':' ∉ completedText c := by
  rcases c with _ | _ | _
  · decide
  · decide
  · decide

theorem assigneeText_inj {a b : Option String} (h : assigneeText a = assigneeText b) : a = b := by
  cases a with
  | none =>
    cases b with
    | none => rfl
    | some t => exact absurd (List.cons.inj h).1 (by decide)
  | some s =>
    cases b with
    | none => exact absurd (List.cons.inj h).1 (by decide)
    | some t => exact congrArg some (Json.writeString_inj h)

/-- A key, with the colons that part it in sight. -/
theorem toList_cacheKey (q : Query) :
    q.cacheKey.toList = listKeyPrefix.toList ++ ("limit=".toList ++ (intDigits q.limit.toInt
      ++ ':' :: ("offset=".toList ++ (intDigits q.offset.toInt
      ++ ':' :: ("completed=".toList ++ (completedText q.filter.completed
      ++ ':' :: ("assignee=".toList ++ assigneeText q.filter.assignee))))))) := by
  have hoffset : ":offset=".toList = ':' :: "offset=".toList := rfl
  have hcompleted : ":completed=".toList = ':' :: "completed=".toList := rfl
  have hassignee : ":assignee=".toList = ':' :: "assignee=".toList := rfl
  unfold cacheKey
  rw [String.toList_ofList, hoffset, hcompleted, hassignee]
  repeat rw [List.append_assoc]
  repeat rw [List.cons_append]
  rfl

/-- Queries with one key are one query. -/
theorem cacheKey_inj {q r : Query} (h : q.cacheKey = r.cacheKey) : q = r := by
  have hlists : q.cacheKey.toList = r.cacheKey.toList := by rw [h]
  rw [toList_cacheKey, toList_cacheKey] at hlists
  have hafter := List.append_cancel_left (List.append_cancel_left hlists)
  obtain ⟨hlimit, hafter⟩ := append_cons_inj (colon_notMem_intDigits _)
    (colon_notMem_intDigits _) hafter
  obtain ⟨hoffset, hafter⟩ := append_cons_inj (colon_notMem_intDigits _)
    (colon_notMem_intDigits _) (List.append_cancel_left hafter)
  obtain ⟨hcompleted, hafter⟩ := append_cons_inj (colon_notMem_completedText _)
    (colon_notMem_completedText _) (List.append_cancel_left hafter)
  have hassignee := assigneeText_inj (List.append_cancel_left hafter)
  obtain ⟨limit, offset, completed, assignee⟩ := q
  obtain ⟨limit', offset', completed', assignee'⟩ := r
  rw [Query.mk.injEq, Filter.mk.injEq]
  exact ⟨Int64.toInt.inj (intDigits_inj hlimit), Int64.toInt.inj (intDigits_inj hoffset),
    completedText_inj hcompleted, hassignee⟩

theorem isPrefix_cacheKey (q : Query) : listKeyPrefix.toList <+: q.cacheKey.toList := by
  rw [toList_cacheKey]
  exact List.prefix_append _ _

/-- Every key is among those that a flush drops. -/
theorem startsWith_cacheKey (q : Query) :
    MemoryCache.startsWith listKeyPrefix q.cacheKey = true := by
  unfold MemoryCache.startsWith
  rw [List.isPrefixOf_iff_prefix]
  exact q.isPrefix_cacheKey

end Query

/-! ## The entry of a query -/

/-- The entry that a cache call reads or writes. -/
def CacheCall.entry? : CacheCall → Option String
  | get key => some key
  | set key _ _ => some key
  | invalidate _ => none

/-- All cache calls of the operation read or write the entry of the key. -/
inductive UsesEntry {α : Type} (key : String) : Operation α → Prop where
  | done (a : α) : UsesEntry key (.done a)
  | store {call : StoreCall} {next : call.Reply → Operation α}
      (hnext : ∀ reply, UsesEntry key (next reply)) : UsesEntry key (.store call next)
  | gauge {change : GaugeChange} {next : Operation α} (hnext : UsesEntry key next) :
      UsesEntry key (.gauge change next)
  | cache {limit : Nat} {call : CacheCall} {next : call.Reply → Operation α}
      (hcall : call.entry? = some key) (hnext : ∀ reply, UsesEntry key (next reply)) :
      UsesEntry key (.cache limit call next)

namespace Caching

theorem usesEntry_readThrough (g : Caching) (q : Query) :
    UsesEntry q.cacheKey (g.readThrough q) := by
  refine .store fun reply => ?_
  cases reply with
  | error e => exact .done _
  | ok tasks => exact .cache rfl fun _ => .done _

/-- A list uses the entry of its query's normal form and no other. -/
theorem usesEntry_list_iff {g : Caching} {q : Query} {key : String} :
    UsesEntry key (list (some g) q) ↔ key = q.normalized.cacheKey := by
  constructor
  · -- the list begins with a look into its entry
    intro h
    cases h with
    | cache hcall hnext => exact (Option.some.inj hcall).symm
  · rintro rfl
    have hthrough := usesEntry_readThrough g q.normalized
    refine .cache rfl fun reply => ?_
    rcases reply with e | _ | text
    · exact hthrough
    · exact hthrough
    · simp only
      split
      · exact .done _
      · exact hthrough

end Caching

/-- A flush leaves no key that begins as it says, and nothing else goes. -/
theorem MemoryCache.get?_invalidate (start key : String) (cache : MemoryCache) :
    (cache.invalidate start).2.get? key
      = if startsWith start key then none else cache.get? key := by
  simp only [invalidate, Keyed.get?_filter]
  by_cases hstart : startsWith start key = true
  · cases cache.get? key <;> simp [hstart, Option.filter]
  · cases cache.get? key <;> simp [hstart, Option.filter]

/-- Queries have one key just if they are one query, so lists share an entry just if their queries
have one normal form. Every key begins as a flush says, and no flush leaves its entry. -/
theorem keys_apart_and_flushed (q r : Query) :
    (q.cacheKey = r.cacheKey ↔ q = r)
    ∧ (∀ g : Caching, (∃ key, UsesEntry key (Caching.list (some g) q)
        ∧ UsesEntry key (Caching.list (some g) r)) ↔ q.normalized = r.normalized)
    ∧ listKeyPrefix.toList <+: q.cacheKey.toList
    ∧ ∀ cache : MemoryCache, (cache.invalidate listKeyPrefix).2.get? q.cacheKey = none := by
  refine ⟨⟨Query.cacheKey_inj, fun h => by rw [h]⟩, fun g => ?_, ?_, fun cache => ?_⟩
  · simp only [Caching.usesEntry_list_iff, exists_eq_left]
    constructor
    · exact Query.cacheKey_inj
    · intro h
      rw [h]
  · exact q.isPrefix_cacheKey
  · rw [MemoryCache.get?_invalidate, if_pos q.startsWith_cacheKey]

end TaskBoard
