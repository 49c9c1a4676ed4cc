import TaskBoard.Run.Single
import TaskBoard.Service

/-!
# Running a page and a count side by side

Both sides are looked at whenever the time has come for one of them, first the page and then the
count, the next time the other way round, and so on by turns. A side that fails ends the run at
once. The count is a single call, which is made when it is first looked at.
-/

namespace TaskBoard.Run

/-- Where the count stands. -/
inductive CountState where
  /-- The call has not been made. -/
  | waiting
  /-- The call is due at this time. -/
  | asked (due : Nat) (failure : Option String)
  | counted (total : Int64)
deriving DecidableEq, Repr

/-- Which of the two sides is looked at first. -/
inductive Turn where
  | page
  | count
deriving DecidableEq, Repr

/-- The other turn. -/
def Turn.next : Turn → Turn
  | page => count
  | count => page

/-- The count's call after its wait. -/
def endCount (c : Conditions) (filter : Filter) (failure : Option String) (w : World) :
    Except TaskError CountState × World :=
  let (reply, w) := w.endStore c (.countFiltered filter) failure
  (reply.map .counted, w)

/-- Looks at the count: makes its call, or ends the call if it is due. -/
def lookAtCount (c : Conditions) (filter : Filter) :
    CountState → World → Except TaskError CountState × World
  | .waiting, w =>
    let (fate, w) := w.noteStore c (.countFiltered filter)
    if fate.delay = 0 then endCount c filter fate.failure w
    else (.ok (.asked (w.timer + fate.delay) fate.failure), w)
  | .asked due failure, w =>
    if due ≤ w.timer then endCount c filter failure w else (.ok (.asked due failure), w)
  | .counted total, w => (.ok (.counted total), w)

/-- Waits for the count alone, the page being read. -/
def finishCount (c : Conditions) (deadline : Option Nat) (filter : Filter) (items : List Task)
    (s : CountState) (w : World) : Option (Except TaskError (List Task × Int64)) × World :=
  match s with
  | .counted total => (some (.ok (items, total)), w)
  | .waiting => (none, w)
  | .asked due failure =>
    match w.waitUntil deadline due with
    | (false, w) => (none, w)
    | (true, w) =>
      match w.endStore c (.countFiltered filter) failure with
      | (.ok total, w) => (some (.ok (items, total)), w)
      | (.error e, w) => (some (.error e), w)

/-- What a wait of the page comes to: cut off, ended by a failing count, or over, with the count's
state, the turn, and whether the count has been looked at this time. -/
inductive Waited where
  | cutOff (w : World)
  | failed (e : TaskError) (w : World)
  | over (s : CountState) (turn : Turn) (looked : Bool) (w : World)

/-- The page's wait is over at this very time. -/
def arrive (c : Conditions) (filter : Filter) (s : CountState) (turn : Turn) (w : World) :
    Waited :=
  match turn with
  | .page => .over s turn false w
  | .count =>
    match lookAtCount c filter s w with
    | (.ok s, w) => .over s turn true w
    | (.error e, w) => .failed e w

/-- Waits, on the page's side, for `delay` milliseconds from now. The count is looked at before,
if it has not been this time, and when it is due on the way. -/
def waitForPage (c : Conditions) (deadline : Option Nat) (filter : Filter) (s : CountState)
    (turn : Turn) (looked : Bool) (delay : Nat) (w : World) : Waited :=
  let due := w.timer + delay
  let go (s : CountState) (turn : Turn) (w : World) : Waited :=
    match w.waitUntil deadline due with
    | (false, w) => .cutOff w
    | (true, w) => arrive c filter s turn.next w
  match if looked then (.ok s, w) else lookAtCount c filter s w with
  | (.error e, w) => .failed e w
  | (.ok (.asked countDue failure), w) =>
    if countDue < due then
      match w.waitUntil deadline countDue with
      | (false, w) => .cutOff w
      | (true, w) =>
        match endCount c filter failure w with
        | (.error e, w) => .failed e w
        | (.ok s, w) => go s turn.next w
    else go (.asked countDue failure) turn w
  | (.ok s, w) => go s turn w

/-- Runs a page, the count being in state `s`. -/
def runPage (c : Conditions) (deadline : Option Nat) (filter : Filter) :
    Operation (Except TaskError (List Task)) → CountState → Turn → (looked : Bool) → World →
      Option (Except TaskError (List Task × Int64)) × World
  | .done (.error e), _, _, _, w => (some (.error e), w)
  | .done (.ok items), s, _, looked, w =>
    match if looked then (.ok s, w) else lookAtCount c filter s w with
    | (.error e, w) => (some (.error e), w)
    | (.ok s, w) => finishCount c deadline filter items s w
  | .gauge change next, s, turn, looked, w =>
    runPage c deadline filter next s turn looked (w.changeGauge change)
  | .store call next, s, turn, looked, w =>
    let (fate, w) := w.noteStore c call
    if fate.delay = 0 then
      let (reply, w) := w.endStore c call fate.failure
      runPage c deadline filter (next reply) s turn looked w
    else
      match waitForPage c deadline filter s turn looked fate.delay w with
      | .cutOff w => (none, w)
      | .failed e w => (some (.error e), w)
      | .over s turn looked w =>
        let (reply, w) := w.endStore c call fate.failure
        runPage c deadline filter (next reply) s turn looked w
  | .cache limit call next, s, turn, looked, w =>
    let (fate, w) := w.noteCache c call
    let (delay, failure) := fate.limited limit
    if delay = 0 then
      let (reply, w) := w.endCache call failure
      runPage c deadline filter (next reply) s turn looked w
    else
      match waitForPage c deadline filter s turn looked delay w with
      | .cutOff w => (none, w)
      | .failed e w => (some (.error e), w)
      | .over s turn looked w =>
        let (reply, w) := w.endCache call failure
        runPage c deadline filter (next reply) s turn looked w

/-- The value of an activity, unless the deadline comes first, and the world after it. A deadline
that has passed already comes before everything. -/
def runActivity {α : Type} (c : Conditions) (deadline : Option Nat) (a : Activity α) (w : World) :
    Option α × World :=
  if deadline.any (· ≤ w.timer) then (none, w)
  else
    match a with
    | .single op => run c deadline op w
    | .pair page filter combine =>
      match runPage c deadline filter page .waiting .page false w with
      | (some result, w) => (some (combine result), w)
      | (none, w) => (none, w)

end TaskBoard.Run
