import TaskBoard.Cache.Memory
import TaskBoard.Operation
import TaskBoard.Store.Table

/-!
# The world that operations run in

Two clocks, the stored tasks, the cached lists and the gauge. The timer counts milliseconds and
moves only while an operation waits; the wall clock counts nanoseconds and stands still during a
request. `Conditions` say how long each call waits and which calls fail.
-/

namespace TaskBoard.Run

/-- How a store call goes: it waits, then fails with a text of the store's or is performed. -/
structure StoreFate where
  delay : Nat
  failure : Option String
deriving DecidableEq, Repr

/-- How a cache call goes. -/
inductive CacheFate where
  /-- It never ends. -/
  | stalls
  /-- It waits, then fails or is performed. -/
  | ends (delay : Nat) (failure : Option CacheError)
deriving DecidableEq, Repr

/-- How calls go and which ids are generated. Calls and ids are numbered from 0 on. -/
structure Conditions where
  store : Nat → StoreCall → StoreFate
  cache : Nat → CacheCall → CacheFate
  id : Nat → String

/-- The state that operations act on. -/
structure World where
  table : Table := .empty
  cache : MemoryCache := .empty
  gauge : Int64 := 0
  /-- Milliseconds. -/
  timer : Nat := 0
  /-- Nanoseconds since 1970. -/
  wall : Int := 0
  /-- How many ids have been generated. -/
  ids : Nat := 0
  /-- The store calls that have been made, last first. -/
  storeCalls : List StoreCall := []
  /-- The cache calls that have been made, last first. -/
  cacheCalls : List CacheCall := []

namespace World

/-- The time that stores see: the wall clock to the microsecond. -/
def now (w : World) : Instant := (Instant.ofUnixNanos w.wall).toMicros

/-- Notes a store call, and says how it will go. -/
def noteStore (c : Conditions) (call : StoreCall) (w : World) : StoreFate × World :=
  (c.store w.storeCalls.length call, { w with storeCalls := call :: w.storeCalls })

/-- Notes a cache call, and says how it will go. -/
def noteCache (c : Conditions) (call : CacheCall) (w : World) : CacheFate × World :=
  (c.cache w.cacheCalls.length call, { w with cacheCalls := call :: w.cacheCalls })

/-- Whether a call makes the store generate an id. -/
def takesId : StoreCall → Bool
  | .create draft => draft.id.isNone
  | _ => false

/-- Performs a store call. -/
def performStore (c : Conditions) (call : StoreCall) (w : World) : call.Reply × World :=
  let (reply, table) := Table.perform w.now (c.id w.ids) call w.table
  (reply, { w with table, ids := if takesId call then w.ids + 1 else w.ids })

/-- A store call after its wait. -/
def endStore (c : Conditions) (call : StoreCall) (failure : Option String) (w : World) :
    call.Reply × World :=
  match failure with
  | some detail => (.error (.persistence detail), w)
  | none => w.performStore c call

/-- Performs a cache call. -/
def performCache (call : CacheCall) (w : World) : call.Answer × World :=
  let (answer, cache) := MemoryCache.perform w.timer call w.cache
  (answer, { w with cache })

/-- A cache call after its wait. -/
def endCache (call : CacheCall) (failure : Option CacheError) (w : World) :
    call.Reply × World :=
  match failure with
  | some e => (.error e, w)
  | none =>
    let (answer, w) := w.performCache call
    (.ok answer, w)

/-- The gauge changed. -/
def changeGauge (change : GaugeChange) (w : World) : World :=
  { w with gauge := change.apply w.gauge }

/-- Waits until a time, which has to come before the deadline; else the wait ends at the
deadline, without a result. -/
def waitUntil (deadline : Option Nat) (time : Nat) (w : World) : Bool × World :=
  match deadline with
  | some d => if d ≤ time then (false, { w with timer := d }) else (true, { w with timer := time })
  | none => (true, { w with timer := time })

end World

/-- How a cache call goes under a time limit: when it is over, and its failure. A call that takes
exactly the limit is in time. -/
def CacheFate.limited (fate : CacheFate) (limit : Nat) : Nat × Option CacheError :=
  let cutOff := (limit, some (CacheError.timeout (limit * 1000000)))
  match fate with
  | stalls => cutOff
  | ends delay failure => if delay ≤ limit then (delay, failure) else cutOff

end TaskBoard.Run
