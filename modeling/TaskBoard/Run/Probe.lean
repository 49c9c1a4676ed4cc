import TaskBoard.Run.World
import TaskBoard.Text.Decimal

/-!
# Probed calls

Conditions under which all store calls wait alike and fail by their kind, and all cache calls wait
alike and fail together or never end.
-/

namespace TaskBoard.Run

open Text

/-- How the cache behaves. -/
inductive CacheMode where
  | ok
  /-- Every call fails. -/
  | broken
  /-- No call ends. -/
  | stalled
deriving DecidableEq, Repr

/-- How calls are treated. -/
structure Probe where
  storeDelay : Nat := 0
  cacheDelay : Nat := 0
  failing : List StoreCall.Kind := []
  cacheMode : CacheMode := .ok
deriving DecidableEq, Repr

/-- The name of a kind of call. -/
def kindName : StoreCall.Kind → String
  | .create => "create"
  | .get => "get_by_id"
  | .list => "list"
  | .update => "update"
  | .delete => "delete"
  | .count => "count"
  | .countFiltered => "count_filtered"

/-- An id in the form of a random identifier of version 4; its last digits are the number. -/
def generatedId (n : Nat) : String :=
  let digits := hexDigits (n % Nat.pow 16 12)
  String.ofList <|
    "7a5cb0a2-0000-4000-8000-".toList ++ List.replicate (12 - digits.length) '0' ++ digits

/-- The conditions that a probe makes. -/
def Probe.conditions (p : Probe) : Conditions where
  store _ call :=
    ⟨p.storeDelay,
      if call.kind ∈ p.failing then some ("injected " ++ kindName call.kind ++ " failure")
      else none⟩
  cache _ _ :=
    match p.cacheMode with
    | .ok => .ends p.cacheDelay none
    | .broken => .ends p.cacheDelay (some (.command "broken"))
    | .stalled => .stalls
  id := generatedId

namespace World

/-- The wall clock moved on by some nanoseconds. -/
def tick (nanos : Int) (w : World) : World := { w with wall := w.wall + nanos }

/-- Both clocks moved on by some milliseconds. -/
def advance (millis : Nat) (w : World) : World :=
  { w with timer := w.timer + millis, wall := w.wall + millis * 1000000 }

end World

end TaskBoard.Run
