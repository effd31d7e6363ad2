/-!
# Lifecycles

A component runs in the background between a start and a stop. What runs is an activation, and there is
one of them at most. A stop first claims the activation, then asks it to end, and waits for it. A stop
that is abandoned gives the activation back, for a later stop to claim again.

Every operation here is one step: nothing happens in the middle of it.
-/

namespace CourierDispatch

inductive LifecycleError
  | alreadyStarted (component : String)
  | notRunning (component : String)
  /-- The activation did not end in an orderly way. -/
  | panicked (component : String)
deriving DecidableEq, Repr

def LifecycleError.message : LifecycleError → String
  | alreadyStarted c => s!"{c} already started"
  | notRunning c => s!"{c} is not running"
  | panicked c => s!"{c} background task panicked"

/-- Where a component is between start and stop. -/
inductive Phase
  | stopped
  | running
  /-- A stop has claimed the activation, or has been abandoned. -/
  | stopping
deriving DecidableEq, Repr

/-- The phase of a component, and its activation unless a stop has claimed it. -/
structure Lifecycle (α : Type) where
  phase : Phase := .stopped
  held : Option α := none
deriving DecidableEq, Repr

namespace Lifecycle

variable {α : Type}

/-- Starts an activation, if the component is stopped. -/
def start? (l : Lifecycle α) (a : α) : Option (Lifecycle α) :=
  match l.phase with
  | .stopped => some ⟨.running, some a⟩
  | _ => none

def claim? (l : Lifecycle α) : Option (α × Lifecycle α) :=
  match l.phase, l.held with
  | .stopped, _ => none
  | _, none => none
  | _, some a => some (a, ⟨.stopping, none⟩)

/-- Gives back the activation that an abandoned stop had claimed. -/
def giveBack (l : Lifecycle α) (a : α) : Lifecycle α := { l with held := some a }

def finish (l : Lifecycle α) : Lifecycle α := { l with phase := .stopped }

def isRunning (l : Lifecycle α) : Bool := l.phase = .running

end Lifecycle

end CourierDispatch
