/-!
# Request metrics

A `Tally` counts requests by method, path and status, and keeps a latency histogram for each
method and path. Both tables are ordered by their labels. Latencies are in nanoseconds and are
compared with the bounds exactly; only their sum is a double.
-/

namespace TaskBoard.Metrics

/-- What a histogram is kept for. -/
structure Labels where
  method : String
  path : String
deriving DecidableEq, Repr

/-- What requests are counted by. -/
structure CounterKey where
  labels : Labels
  status : Nat
deriving DecidableEq, Repr

/-- Labels are ordered by method, then path. -/
def Labels.before (a b : Labels) : Bool :=
  decide (a.method < b.method) || (a.method == b.method && decide (a.path < b.path))

/-- Counters are ordered by labels, then status. -/
def CounterKey.before (a b : CounterKey) : Bool :=
  a.labels.before b.labels || (a.labels == b.labels && a.status < b.status)

/-- An ordered table with the entry at `key` changed by `f`, which is given the old entry. -/
def alter {κ α : Type} [DecidableEq κ] (before : κ → κ → Bool) (key : κ) (f : Option α → α) :
    List (κ × α) → List (κ × α)
  | [] => [(key, f none)]
  | (k, a) :: rest =>
    if k = key then (k, f (some a)) :: rest
    else if before key k then (key, f none) :: (k, a) :: rest
    else (k, a) :: alter before key f rest

/-- An upper bound of a bucket: nanoseconds, and the seconds as they are written. -/
structure Bound where
  nanos : Nat
  label : String
deriving DecidableEq, Repr

/-- The upper bounds of the buckets, increasing. -/
def bounds : List Bound := [
  ⟨5000000, "0.005"⟩, ⟨10000000, "0.01"⟩, ⟨25000000, "0.025"⟩, ⟨50000000, "0.05"⟩,
  ⟨100000000, "0.1"⟩, ⟨250000000, "0.25"⟩, ⟨500000000, "0.5"⟩, ⟨1000000000, "1"⟩,
  ⟨2500000000, "2.5"⟩, ⟨5000000000, "5"⟩, ⟨10000000000, "10"⟩]

/-- The latencies of one kind of request. -/
structure Histogram where
  /-- For each bound, how many latencies are at most it and above the bound before. -/
  buckets : List Nat := bounds.map fun _ => 0
  /-- Seconds, added up in the order of observation. -/
  sum : Float := 0.0
  count : Nat := 0

/-- The buckets with one more in the first whose bound is not exceeded. -/
def fill (nanos : Nat) : List Bound → List Nat → List Nat
  | b :: bs, n :: ns => if nanos ≤ b.nanos then (n + 1) :: ns else n :: fill nanos bs ns
  | _, ns => ns

/-- A duration in seconds. -/
def seconds (nanos : Nat) : Float :=
  Float.ofNat (nanos / 1000000000) + Float.ofNat (nanos % 1000000000) / 1000000000.0

/-- The histogram with one more latency. -/
def Histogram.observe (h : Histogram) (nanos : Nat) : Histogram where
  buckets := fill nanos bounds h.buckets
  sum := h.sum + seconds nanos
  count := h.count + 1

/-- For each bound, how many latencies are at most it. -/
def Histogram.cumulative (h : Histogram) : List Nat := go 0 h.buckets
where
  /-- Running totals from `total` on. -/
  go (total : Nat) : List Nat → List Nat
    | [] => []
    | n :: ns => (total + n) :: go (total + n) ns

/-- All that has been counted. -/
structure Tally where
  requests : List (CounterKey × Nat) := []
  latency : List (Labels × Histogram) := []

namespace Tally

/-- The tally with one more request. -/
def observe (t : Tally) (method path : String) (status nanos : Nat) : Tally where
  requests :=
    alter CounterKey.before ⟨⟨method, path⟩, status⟩ (fun old => old.getD 0 + 1) t.requests
  latency :=
    alter Labels.before ⟨method, path⟩ (fun old => (old.getD {}).observe nanos) t.latency

/-- How many requests of a method, path and status there were. -/
def requestsTotal (t : Tally) (method path : String) (status : Nat) : Nat :=
  (t.requests.lookup ⟨⟨method, path⟩, status⟩).getD 0

end Tally

end TaskBoard.Metrics
