import TaskBoard.Cache.Call
import TaskBoard.Gauge
import TaskBoard.Store.Call

/-!
# Operations

An operation is a program of calls: of the store, of the cache within a time limit, and changes of
the gauge. What runs between two calls runs at once; only at a call can an operation be kept
waiting, be cut off, or another one come between. `bind_done` and `bind_assoc` are the laws of
doing one operation after another.
-/

namespace TaskBoard

/-- A program of calls that ends with a value. -/
inductive Operation (α : Type) where
  | done (value : α)
  | store (call : StoreCall) (next : call.Reply → Operation α)
  /-- A cache call that fails after `limit` milliseconds without an answer. -/
  | cache (limit : Nat) (call : CacheCall) (next : call.Reply → Operation α)
  | gauge (change : GaugeChange) (next : Operation α)

namespace Operation

variable {α β γ : Type}

/-- One operation after another. -/
def bind : Operation α → (α → Operation β) → Operation β
  | done value, f => f value
  | store call next, f => store call fun reply => (next reply).bind f
  | cache limit call next, f => cache limit call fun reply => (next reply).bind f
  | gauge change next, f => gauge change (next.bind f)

instance : Monad Operation where
  pure := done
  bind := bind

@[simp] theorem done_bind (a : α) (f : α → Operation β) : (done a).bind f = f a := rfl

@[simp] theorem bind_done (op : Operation α) : op.bind done = op := by
  induction op with
  | done => rfl
  | store call next ih => simp only [bind, ih]
  | cache limit call next ih => simp only [bind, ih]
  | gauge change next ih => simp only [bind, ih]

theorem bind_assoc (op : Operation α) (f : α → Operation β) (g : β → Operation γ) :
    (op.bind f).bind g = op.bind fun a => (f a).bind g := by
  induction op with
  | done => rfl
  | store call next ih => simp only [bind, ih]
  | cache limit call next ih => simp only [bind, ih]
  | gauge change next ih => simp only [bind, ih]

/-- The operation with its value replaced through `f`. -/
def map (f : α → β) (op : Operation α) : Operation β := op.bind fun a => done (f a)

/-- A single store call. -/
def ask (call : StoreCall) : Operation call.Reply := store call done

/-- A single cache call. -/
def askCache (limit : Nat) (call : CacheCall) : Operation call.Reply := cache limit call done

/-- A single change of the gauge. -/
def count (change : GaugeChange) : Operation Unit := gauge change (done ())

end Operation

end TaskBoard
