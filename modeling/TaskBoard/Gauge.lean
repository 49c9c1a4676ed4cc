/-!
# The task gauge

A count of the stored tasks that follows creates and deletes; it is a 64-bit counter and wraps.
-/

namespace TaskBoard

/-- What happens to the gauge. -/
inductive GaugeChange where
  | increment
  | decrement
  /-- The gauge is overwritten with a full recount. -/
  | assign (count : Int64)
deriving DecidableEq, Repr

/-- The gauge after a change. -/
def GaugeChange.apply : GaugeChange → Int64 → Int64
  | increment, g => g + 1
  | decrement, g => g - 1
  | assign count, _ => count

end TaskBoard
