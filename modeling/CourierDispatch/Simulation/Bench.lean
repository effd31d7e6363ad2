import CourierDispatch.Lifecycle

/-!
# A bench for lifecycles

A lifecycle whose activations are tasks of known behaviour, and a clock. What a task gives and when it
ends follows from when it began and when it was asked to end, so a stop can look ahead to the end of the
task that it waits for.
-/

namespace CourierDispatch.Simulation

inductive TaskKind
  /-- Ends when asked to. -/
  | wait
  /-- Ends at once. -/
  | immediate
  /-- Ends after some time, whatever it is asked. -/
  | sleep
  /-- Ends after some time, or when asked to. -/
  | sleepOrCancel
  /-- Ends some time after it is asked to. -/
  | slowExit
  /-- Panics at once. -/
  | panic
  /-- Panics when asked to end. -/
  | panicOnCancel
deriving DecidableEq, Repr

/-- A task, when it began, and when it was asked to end. -/
structure Task where
  kind : TaskKind
  value : Int
  delay : Nat
  begun : Nat
  asked : Option Nat
deriving DecidableEq, Repr

namespace Task

def ends? (t : Task) : Option Nat :=
  match t.kind with
  | .wait | .panicOnCancel => t.asked
  | .immediate | .panic => some t.begun
  | .sleep => some (t.begun + t.delay)
  | .sleepOrCancel => some (min (t.begun + t.delay) (t.asked.getD (t.begun + t.delay)))
  | .slowExit => t.asked.map (· + t.delay)

/-- What the task gives, and nothing if it panics. A task that was asked to end before it had slept
gives a thousand more. -/
def value? (t : Task) : Option Int :=
  match t.kind with
  | .panic | .panicOnCancel => none
  | .sleepOrCancel =>
    match t.asked with
    | some a => some (if a < t.begun + t.delay then 1000 + t.value else t.value)
    | none => some t.value
  | _ => some t.value

def ask (time : Nat) (t : Task) : Task := { t with asked := some (t.asked.getD time) }

def hasEnded (time : Nat) (t : Task) : Bool :=
  match t.ends? with
  | some e => e ≤ time
  | none => false

end Task

/-- A lifecycle on the bench, whether everything has been asked to end, and how many tasks have begun
and hooks have run. -/
structure Bench where
  lifecycle : Lifecycle Task := {}
  time : Nat := 0
  cancelled : Bool := false
  begun : Nat := 0
  hooks : Nat := 0
deriving Repr

namespace Bench

def label : String := "test"

abbrev Answer (α : Type) := Except LifecycleError α

def start (b : Bench) (kind : TaskKind) (value : Int) (delay : Nat) : Bench × Answer Unit :=
  let asked := if b.cancelled then some b.time else none
  match b.lifecycle.start? { kind, value, delay, begun := b.time, asked } with
  | some lifecycle => ({ b with lifecycle, begun := b.begun + 1 }, .ok ())
  | none => (b, .error (.alreadyStarted label))

def outcome (t : Task) : Answer Int :=
  match t.value? with
  | some v => .ok v
  | none => .error (.panicked label)

def join (b : Bench) (t : Task) : Bench × Answer Int :=
  let time := max b.time (t.ends?.getD b.time)
  ({ b with time, lifecycle := b.lifecycle.finish }, outcome t)

def claim (b : Bench) : Bench × Answer Task :=
  match b.lifecycle.claim? with
  | some (t, lifecycle) => ({ b with lifecycle }, .ok (t.ask b.time))
  | none => (b, .error (.notRunning label))

def stop (b : Bench) : Bench × Answer Int :=
  match b.claim with
  | (b, .ok t) => b.join t
  | (b, .error e) => (b, .error e)

/-- Stops the task and runs a hook when it is claimed. -/
def stopHook (b : Bench) : Bench × Answer Int :=
  match b.claim with
  | (b, .ok t) => { b with hooks := b.hooks + 1 }.join t
  | (b, .error e) => (b, .error e)

/-- Stops the task, but abandons the stop unless it is over within some time. -/
def stopWithin (b : Bench) (millis : Nat) : Bench × Option (Answer Int) :=
  match b.claim with
  | (b, .error e) => (b, some (.error e))
  | (b', .ok t) =>
    let early :=
      match t.ends? with
      | some e => e < b.time + millis
      | none => false
    if ((b.lifecycle.held.map (Task.hasEnded b.time)).getD false) || early then
      let (b, r) := b'.join t
      (b, some r)
    else ({ b' with time := b.time + millis, lifecycle := b'.lifecycle.giveBack t }, none)

def stopTwice (b : Bench) : Bench × Answer Int × Answer Int :=
  match b.claim with
  | (b, .error e) => (b, .error e, .error e)
  | (b, .ok t) =>
    let second : Answer Int :=
      match b.claim with
      | (_, .error e) => .error e
      | (_, .ok t) => outcome t
    let (b, first) := b.join t
    (b, first, second)

/-- What can be seen of the lifecycle while it is stopped, and whether it can be started then. -/
structure Glimpse where
  phase : Phase
  running : Bool
  start : Answer Unit

/-- A look at the lifecycle and a start of a task that ends at once, which is not counted. -/
def glimpse (b : Bench) : Bench × Glimpse :=
  let (after, start) := b.start .immediate 0 0
  ({ after with begun := b.begun }, ⟨b.lifecycle.phase, b.lifecycle.isRunning, start⟩)

/-- A stop, and a glimpse as soon as it has claimed the task. If the task has ended already, the stop is
over by then. -/
def startDuringStop (b : Bench) : Bench × Answer Int × Glimpse :=
  let ended := (b.lifecycle.held.map (Task.hasEnded b.time)).getD false
  match b.claim with
  | (b, .error e) =>
    let (b, g) := b.glimpse
    (b, .error e, g)
  | (b, .ok t) =>
    if ended then
      let (b, r) := b.join t
      let (b, g) := b.glimpse
      (b, r, g)
    else
      let (b, g) := b.glimpse
      let (b, r) := b.join t
      (b, r, g)

def cancelRoot (b : Bench) : Bench :=
  let held := b.lifecycle.held.map (Task.ask b.time)
  { b with cancelled := true, lifecycle := { b.lifecycle with held } }

def advance (b : Bench) (millis : Nat) : Bench := { b with time := b.time + millis }

end Bench

end CourierDispatch.Simulation
