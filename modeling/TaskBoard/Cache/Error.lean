import TaskBoard.Text.Duration

/-!
# What can go wrong with a cache

A cache error is never the answer to a request; it only has a wording for logs and operators.
-/

namespace TaskBoard

/-- Why a cache call failed. -/
inductive CacheError where
  | connection (detail : String)
  | command (detail : String)
  /-- The stored text is not what was put there. -/
  | serialization (detail : String)
  /-- The call took longer than this many nanoseconds. -/
  | timeout (nanos : Nat)
deriving DecidableEq, Repr

/-- The wording of a cache error. -/
def CacheError.message : CacheError → String
  | connection detail => "cache connection failed: " ++ detail
  | command detail => "cache command failed: " ++ detail
  | serialization detail => "cache payload invalid: " ++ detail
  | timeout nanos => "cache operation timed out after " ++ Text.durationText nanos

end TaskBoard
