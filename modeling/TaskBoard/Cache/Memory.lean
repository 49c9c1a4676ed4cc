import TaskBoard.Cache.Call
import TaskBoard.Keyed

/-!
# The in-memory cache

Texts by key, each with the time at which it expires. An entry is live before that time. Expired
entries are held until a `set`, or a `get` of their key, drops them.
-/

namespace TaskBoard

/-- A cached text and the time, in milliseconds, from which on it is expired. -/
structure CacheEntry where
  value : String
  expires : Nat
deriving DecidableEq, Repr

/-- The entries of a cache, by key. -/
abbrev MemoryCache := Keyed CacheEntry

namespace MemoryCache

/-- Whether a key begins with a text. -/
def startsWith (start key : String) : Bool := start.toList.isPrefixOf key.toList

/-- The number of live entries. -/
def liveCount (now : Nat) (c : MemoryCache) : Nat :=
  (c.entries.filter fun (_, e) => now < e.expires).length

/-- The live text of a key, and the cache without it if it is expired. -/
def get (now : Nat) (key : String) (c : MemoryCache) : Option String × MemoryCache :=
  match c.get? key with
  | some e => if now < e.expires then (some e.value, c) else (none, c.erase key)
  | none => (none, c)

/-- The cache with a new text, and without what is expired. -/
def set (now : Nat) (key value : String) (ttl : Nat) (c : MemoryCache) : MemoryCache :=
  (c.filter fun _ e => now < e.expires).insert key ⟨value, now + ttl⟩

/-- The number of entries dropped, and the cache without them. -/
def invalidate (start : String) (c : MemoryCache) : Nat × MemoryCache :=
  let kept := c.filter fun key _ => !startsWith start key
  (c.size - kept.size, kept)

/-- The answer to a call and the cache after it. -/
def perform (now : Nat) : (call : CacheCall) → MemoryCache → call.Answer × MemoryCache
  | .get key, c => c.get now key
  | .set key value ttl, c => ((), c.set now key value ttl)
  | .invalidate start, c => c.invalidate start

end MemoryCache

end TaskBoard
