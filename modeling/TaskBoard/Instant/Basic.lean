import TaskBoard.Instant.Calendar

/-!
# Instants

A point of UTC time: whole seconds since 1970 and nanoseconds within the second. A leap second is
the second nanosecond-billion of a minute's last second, so it needs no count of its own. The
years reach from −262143 to 262142.
-/

namespace TaskBoard

/-- The first second of the first year. -/
def Instant.firstSecond : Int := -8334601228800

/-- The last second of the last year. -/
def Instant.lastSecond : Int := 8210266876799

/-- Nanoseconds in a second. -/
def Instant.nanosPerSecond : Nat := 1000000000

/-- A point of UTC time. -/
structure Instant where
  /-- Seconds since 1970-01-01T00:00:00Z, leap seconds not counted. -/
  seconds : Int
  /-- Nanoseconds within the second; from a billion on, within the leap second after it. -/
  nanos : Nat
  first_le : Instant.firstSecond ≤ seconds := by decide
  le_last : seconds ≤ Instant.lastSecond := by decide
  nanos_lt : nanos < 2 * Instant.nanosPerSecond := by decide
  leap_last : Instant.nanosPerSecond ≤ nanos → seconds % 60 = 59 := by decide
deriving DecidableEq

namespace Instant

/-- The instant with these seconds and nanoseconds, if there is one. -/
def ofParts? (seconds : Int) (nanos : Nat) : Option Instant :=
  if h : firstSecond ≤ seconds ∧ seconds ≤ lastSecond ∧ nanos < 2 * nanosPerSecond
      ∧ (nanosPerSecond ≤ nanos → seconds % 60 = 59) then
    some ⟨seconds, nanos, h.1, h.2.1, h.2.2.1, h.2.2.2⟩
  else none

/-- The instant a number of nanoseconds after 1970; beyond the years it is the first or last
second. -/
def ofUnixNanos (n : Int) : Instant where
  seconds := max firstSecond (min lastSecond (n / nanosPerSecond))
  nanos := (n % nanosPerSecond).toNat
  first_le := by omega
  le_last := by simp only [firstSecond, lastSecond]; omega
  nanos_lt := by simp only [nanosPerSecond]; omega
  leap_last := by simp only [nanosPerSecond]; omega

/-- The instant rounded down to the microsecond. -/
def toMicros (t : Instant) : Instant where
  seconds := t.seconds
  nanos := t.nanos - t.nanos % 1000
  first_le := t.first_le
  le_last := t.le_last
  nanos_lt := Nat.lt_of_le_of_lt (Nat.sub_le _ _) t.nanos_lt
  leap_last h := t.leap_last (Nat.le_trans h (Nat.sub_le _ _))

/-- Whether `t` is not later than `u`. -/
def notAfter (t u : Instant) : Bool :=
  t.seconds < u.seconds || (t.seconds == u.seconds && t.nanos ≤ u.nanos)

/-- The later of two instants. -/
def latest (t u : Instant) : Instant := if t.notAfter u then u else t

end Instant

end TaskBoard
