import CourierDispatch.Numeric.Double

/-!
# Backing off

After each failure in a row the next try waits longer: the delay grows by a factor each time until it
reaches its maximum. Delays are counted in nanoseconds. The product is computed in doubles of seconds
and rounded to the nearest nanosecond.
-/

namespace CourierDispatch

/-- The largest count of failures and retries: they are counted in 32 bits and stay at the top. -/
def countLimit : Nat := 1 <<< 32 - 1

def countUp (n : Nat) : Nat := min (n + 1) countLimit

/-- A delay that grows with each failure. -/
structure Backoff where
  /-- The first delay in nanoseconds. -/
  initial : Nat
  /-- The longest delay in nanoseconds. -/
  max : Nat
  /-- The factor of growth. -/
  multiplier : Double
deriving DecidableEq, Repr

namespace Backoff

def second : Nat := 1000000000

/-- Nanoseconds in a millisecond. -/
def millisecond : Nat := 1000000

def seconds (nanos : Nat) : Double :=
  (Double.ofNat (nanos / second)).add ((Double.ofNat (nanos % second)).div (Double.ofNat second))

/-- The nearest duration to a number of seconds. -/
def ofSeconds (x : Double) : Nat := divNearest (x.units * second) Double.unitsPerOne

/-- The delay after `attempt` failures in a row before this one. A factor below one counts as one. -/
def delay (b : Backoff) (attempt : Nat) : Nat :=
  let factor := b.multiplier.atLeastOne.pow (min attempt (1 <<< 31 - 1))
  let scaled := (seconds b.initial).mul factor
  if !scaled.isFinite || (seconds b.max).magnitudeLE scaled then b.max else ofSeconds scaled

/-- The delays of a pipeline unless others are asked for. -/
def standard : Backoff := ⟨50 * millisecond, 5 * second, Double.ofNat 2⟩

/-- How many milliseconds pass until a timer of this duration fires: timers fire on whole milliseconds
and never early. -/
def timerMillis (nanos : Nat) : Nat := (nanos + (millisecond - 1)) / millisecond

end Backoff

/-- How often a failed write is tried again, and the pause before each retry in nanoseconds. -/
structure Retry where
  attempts : Nat := 0
  delay : Nat := 100 * Backoff.millisecond
deriving DecidableEq, Repr

end CourierDispatch
