/-!
# Calls that take time

A call on something with a state begins at once and ends some milliseconds later, or never. Meanwhile
the state may change in other ways. Whoever called may give the call up before it ends; then nothing
more comes of it.
-/

namespace CourierDispatch

/-- A call that has begun on a state of type `σ` and will be answered by an `α`. -/
structure Call (σ α : Type) where
  /-- How many milliseconds the call takes; without a number it never ends. -/
  latency : Option Nat := some 0
  /-- The state when the call has begun. -/
  begun : σ
  /-- What the end of the call makes of the state that it then meets, and the answer. -/
  finish : σ → σ × α

namespace Call

variable {σ τ α β : Type}

def now (state : σ) (answer : α) : Call σ α := { begun := state, finish := fun s => (s, answer) }

/-- A call on a part of a larger state, with its answer seen from there. -/
def within (c : Call σ α) (whole : τ) (get : τ → σ) (set : σ → τ → τ) (f : α → β) : Call τ β :=
  { latency := c.latency
    begun := set c.begun whole
    finish := fun t =>
      let r := c.finish (get t)
      (set r.1 t, f r.2) }

/-- State and answer of a call that nothing else comes between. -/
def run (c : Call σ α) : σ × α := c.finish c.begun

/-- Whether the call ends within so many milliseconds. One that ends at the last moment does. -/
def endsWithin (c : Call σ α) (millis : Nat) : Bool :=
  match c.latency with
  | some ms => ms ≤ millis
  | none => false

end Call

end CourierDispatch
