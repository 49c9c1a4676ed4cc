import TaskBoard.Run.World

/-!
# Running one operation

`run` performs the calls of an operation one after the other. A call that is due at the deadline
or later is not performed: the run ends there without a value.
-/

namespace TaskBoard.Run

/-- Waits for a duration; without one nothing is waited for. -/
def World.pause (deadline : Option Nat) (delay : Nat) (w : World) : Bool × World :=
  if delay = 0 then (true, w) else w.waitUntil deadline (w.timer + delay)

/-- The value of an operation, unless the deadline comes first, and the world after it. -/
def run {α : Type} (c : Conditions) (deadline : Option Nat) :
    Operation α → World → Option α × World
  | .done value, w => (some value, w)
  | .gauge change next, w => run c deadline next (w.changeGauge change)
  | .store call next, w =>
    let (fate, w) := w.noteStore c call
    match w.pause deadline fate.delay with
    | (false, w) => (none, w)
    | (true, w) =>
      let (reply, w) := w.endStore c call fate.failure
      run c deadline (next reply) w
  | .cache limit call next, w =>
    let (fate, w) := w.noteCache c call
    let (delay, failure) := fate.limited limit
    match w.pause deadline delay with
    | (false, w) => (none, w)
    | (true, w) =>
      let (reply, w) := w.endCache call failure
      run c deadline (next reply) w

end TaskBoard.Run
