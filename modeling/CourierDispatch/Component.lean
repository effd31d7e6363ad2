import CourierDispatch.Lifecycle

/-!
# Components

A component is a lifecycle together with its runs, one for each activation, the oldest first. Earlier
runs are kept, since somebody may still wait for what they left behind.
-/

namespace CourierDispatch

/-- A run of the loop of a component, and whether it has been asked to end. -/
structure Run (α : Type) where
  asked : Bool
  loop : α
deriving DecidableEq, Repr

/-- A component that runs a loop in the background. An activation is the index of its run. -/
structure Component (α : Type) where
  label : String
  control : Lifecycle Nat := {}
  runs : List (Run α) := []
deriving Repr

namespace Component

variable {α : Type}

def start (c : Component α) (r : Run α) : Except LifecycleError (Component α) :=
  match c.control.start? c.runs.length with
  | some control => .ok { c with control, runs := c.runs ++ [r] }
  | none => .error (.alreadyStarted c.label)

def ask (i : Nat) (c : Component α) : Component α :=
  { c with runs := c.runs.modify i fun r => { r with asked := true } }

def askAll (c : Component α) : Component α :=
  { c with runs := c.runs.map fun r => { r with asked := true } }

/-- Begins a stop: claims the run and asks it to end. -/
def claim (c : Component α) : Except LifecycleError (Nat × Component α) :=
  match c.control.claim? with
  | some (i, control) => .ok (i, ask i { c with control })
  | none => .error (.notRunning c.label)

def finish (c : Component α) : Component α := { c with control := c.control.finish }

def giveBack (c : Component α) (i : Nat) : Component α :=
  { c with control := c.control.giveBack i }

def isRunning (c : Component α) : Bool := c.control.isRunning

/-- The latest run, the only one that may not have ended. -/
def latest? (c : Component α) : Option (Run α) := c.runs.getLast?

def setLatest (c : Component α) (loop : α) : Component α :=
  { c with runs := c.runs.modify (c.runs.length - 1) fun r => { r with loop } }

end Component

end CourierDispatch
