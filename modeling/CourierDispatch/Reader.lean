import CourierDispatch.Component
import CourierDispatch.Reader.ConsumeLoop

/-!
# The command reader

A reader can be started and stopped. Commands are read from the inbox of its running activation; while
it is not running, reads find no inbox.
-/

namespace CourierDispatch

structure Reader (S : Type) where
  source : S
  format : WireFormat
  backoff : Backoff
  component : Component ConsumeLoop := { label := "command reader" }
  /-- The run whose inbox is read from. -/
  channels : Option Nat := none

namespace Reader

variable {S : Type}

/-- Starts the reader with a fresh inbox. The run is asked to end at once if `asked` is set. -/
def start (r : Reader S) (time : Nat) (asked : Bool) : Except LifecycleError (Reader S) :=
  match r.component.start ⟨asked, .begin time⟩ with
  | .ok component => .ok { r with component, channels := some r.component.runs.length }
  | .error e => .error e

/-- Begins a stop: the inbox is taken away together with the claim. -/
def claim (r : Reader S) : Except LifecycleError (Nat × Reader S) :=
  match r.component.claim with
  | .ok (i, component) => .ok (i, { r with component, channels := none })
  | .error e => .error e

def isRunning (r : Reader S) : Bool := r.component.isRunning

def loop? (r : Reader S) (i : Nat) : Option ConsumeLoop := (r.component.runs[i]?).map (·.loop)

def takeFrom (r : Reader S) (i : Nat) (reportFirst : Bool) :
    Reader S × Option (Except ReadError Command) :=
  match r.loop? i with
  | none => (r, some (.error .channelClosed))
  | some l =>
    let (inbox, answer) := l.inbox.take reportFirst
    let runs := r.component.runs.modify i fun run => { run with loop := { run.loop with inbox } }
    ({ r with component := { r.component with runs } }, answer)

def read (r : Reader S) (reportFirst : Bool) : Reader S × Option (Except ReadError Command) :=
  match r.channels with
  | none => (r, some (.error .channelClosed))
  | some i => r.takeFrom i reportFirst

/-- Ends the latest run, if it has been asked to. -/
def exit (r : Reader S) : Option (Reader S) :=
  match r.component.latest? with
  | some ⟨true, l⟩ =>
    match l.stage with
    | .exited => none
    | _ => some { r with component := r.component.setLatest l.exit }
  | _ => none

def step [MessageSource S] (r : Reader S) (time : Nat) : Reader S × Bool :=
  match r.component.latest? with
  | none => (r, false)
  | some run =>
    match run.loop.step r.format r.backoff time r.source with
    | (source, none) => ({ r with source }, false)
    | (source, some loop) => ({ r with source, component := r.component.setLatest loop }, true)

/-- Makes a move of the loop, which ends wherever it waits once it is asked to. -/
def turn [MessageSource S] (r : Reader S) (time : Nat) : Reader S × Bool :=
  match r.exit with
  | some r => (r, true)
  | none => r.step time

/-- Lets the loop move until it waits, for so many moves at most. -/
def settle [MessageSource S] (time : Nat) : Nat → Reader S → Reader S
  | 0, r => r
  | n + 1, r =>
    match r.turn time with
    | (r, true) => settle time n r
    | (r, false) => r

def stop (r : Reader S) : Reader S × Except LifecycleError Unit :=
  match r.claim with
  | .error e => (r, .error e)
  | .ok (_, r) =>
    let r := r.exit.getD r
    ({ r with component := r.component.finish }, .ok ())

/-- Asks all runs to end, as the whole program is asked to. -/
def cancel (r : Reader S) : Reader S := { r with component := r.component.askAll }

def due? (r : Reader S) : Option Nat := (r.component.latest?).bind (·.loop.due?)

def isReading (r : Reader S) : Bool :=
  match r.component.latest? with
  | some ⟨_, { stage := .reading, .. }⟩ => true
  | _ => false

def notices (r : Reader S) : List ReaderNotice :=
  r.component.runs.flatMap fun run => run.loop.notices.reverse

def dropped (r : Reader S) : Nat := (r.component.runs.map (·.loop.dropped)).foldl (· + ·) 0

end Reader

end CourierDispatch
