import TaskBoard.Cache.Key
import TaskBoard.Operation
import TaskBoard.Task.Wire

/-!
# Cached lists

The calls of a store with a cache of lists beside it. A list is taken from the cache if it is
there; else it is read from the store and put there. A write that succeeds drops all cached lists.
What goes wrong with the cache, or takes too long, is as if nothing were cached.
-/

namespace TaskBoard

/-- How lists are cached. -/
structure Caching where
  /-- How long a list lives, in milliseconds. -/
  ttl : Nat
  /-- How long a cache call may take, in milliseconds. -/
  opTimeout : Nat
deriving DecidableEq, Repr

namespace Caching

/-- The list of tasks that a cached text holds, if it holds one. -/
def decode? (text : String) : Option (List Task) :=
  (Task.listReader.decode (text.toList.map .char)).toOption

/-- The text under which a list of tasks is cached. -/
def encode (tasks : List Task) : String := String.ofList (Task.listToJson tasks)

/-- Drops all cached lists, if they are cached. -/
def flush : Option Caching → Operation Unit
  | none => .done ()
  | some c => .cache c.opTimeout (.invalidate listKeyPrefix) fun _ => .done ()

/-- Reads a list from the store and caches it. -/
def readThrough (c : Caching) (q : Query) : Operation (StoreCall.list q).Reply :=
  .store (.list q) fun
    | .error e => .done (.error e)
    | .ok tasks =>
      .cache c.opTimeout (.set q.cacheKey (encode tasks) c.ttl) fun _ => .done (.ok tasks)

/-- A list, from the cache or else from the store. -/
def list (caching : Option Caching) (q : Query) : Operation (Except TaskError (List Task)) :=
  let q := q.normalized
  match caching with
  | none => .ask (.list q)
  | some c =>
    .cache c.opTimeout (.get q.cacheKey) fun
      | .ok (some text) =>
        match decode? text with
        | some tasks => .done (.ok tasks)
        | none => c.readThrough q
      | _ => c.readThrough q

/-- A call of the store with its cache. -/
def perform (caching : Option Caching) : (call : StoreCall) → Operation call.Reply
  | .create draft =>
    .store (.create draft) fun
      | .error e => .done (.error e)
      | .ok task => (flush caching).map fun _ => .ok task
  | .list q => list caching q
  | .update task =>
    .store (.update task) fun
      | .error e => .done (.error e)
      | .ok () => (flush caching).map fun _ => .ok ()
  | .delete id =>
    .store (.delete id) fun
      | .ok true => (flush caching).map fun _ => .ok true
      | reply => .done reply
  | .get id => .ask (.get id)
  | .count => .ask .count
  | .countFiltered f => .ask (.countFiltered f)

end Caching

end TaskBoard
