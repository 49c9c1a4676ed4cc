import TaskBoard.Cache.Error

/-!
# Cache calls

What can be asked of a cache of texts.
-/

namespace TaskBoard

/-- A call of a cache. -/
inductive CacheCall where
  | get (key : String)
  /-- The text lives for `ttl` milliseconds. -/
  | set (key value : String) (ttl : Nat)
  /-- Drops every key that begins with `start`. -/
  | invalidate (start : String)
deriving DecidableEq, Repr

namespace CacheCall

/-- The type of the answer to a call. -/
def Answer : CacheCall → Type
  | get _ => Option String
  | set _ _ _ => Unit
  | invalidate _ => Nat

/-- What a cache answers to a call. -/
abbrev Reply (call : CacheCall) : Type := Except CacheError call.Answer

end CacheCall

end TaskBoard
