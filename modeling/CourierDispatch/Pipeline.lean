import CourierDispatch.Config
import CourierDispatch.Dispatcher
import CourierDispatch.Processor
import CourierDispatch.Service.Layers

/-!
# The pipeline

A pipeline is a desk together with a clock of whole milliseconds. Its two loops take turns: one of them
moves until it waits, then the other one. When both wait the pipeline has settled, and only then time
passes, up to the next moment that a loop waits for.
-/

namespace CourierDispatch

inductive PipelineError
  | lifecycle (source : LifecycleError)
  | writer (source : WriteError)
deriving DecidableEq, Repr

def PipelineError.message : PipelineError → String
  | lifecycle e => e.message
  | writer e => s!"closing result writer: {e.message}"

inductive PipelineNotice
  | started
  | stopped
  | rollbackFailed (error : LifecycleError)
deriving DecidableEq, Repr

def PipelineNotice.record : PipelineNotice → Log.Record
  | started => ⟨.info, "pipeline started", []⟩
  | stopped => ⟨.info, "pipeline stopped", []⟩
  | rollbackFailed e =>
    ⟨.warn, "failed to stop reader after processor start failure", [("error", .text e.message)]⟩

/-- The two loops of a pipeline. -/
inductive Turn
  | reader
  | processor
deriving DecidableEq, Repr

def Turn.other : Turn → Turn
  | reader => processor
  | processor => reader

/-- A desk at a time. `cancelled` says that the whole program has been asked to end. -/
structure Pipeline (S H K : Type) where
  desk : Desk S H K
  time : Nat := 0
  cancelled : Bool := false
  /-- The loop that has begun to wait before the other one. -/
  earlier : Turn := .reader
  notices : List PipelineNotice := []

namespace Pipeline

variable {S H K : Type}

def ofConfig {U : Type} (config : Config) (source : S) (sink : K) (couriers : Dispatcher U) :
    Pipeline S (Stack (Dispatcher U)) K :=
  { desk :=
    { reader := { source, format := config.format, backoff := config.readBackoff }
      processor :=
        { handler := stack config.timeout couriers
          retry := config.retry
          idleBackoff := config.readBackoff }
      writer := { sink, topic := config.resultTopic, format := config.format } } }

def withIdleBackoff (p : Pipeline S H K) (idleBackoff : Backoff) : Pipeline S H K :=
  { p with desk := { p.desk with processor := { p.desk.processor with idleBackoff } } }

def setSource (p : Pipeline S H K) (source : S) : Pipeline S H K :=
  { p with desk := { p.desk with reader := { p.desk.reader with source } } }

def setSink (p : Pipeline S H K) (sink : K) : Pipeline S H K :=
  { p with desk := { p.desk with writer := { p.desk.writer with sink } } }

def note (p : Pipeline S H K) (n : PipelineNotice) : Pipeline S H K :=
  { p with notices := n :: p.notices }

def cancel (p : Pipeline S H K) : Pipeline S H K :=
  let processor := { p.desk.processor with component := p.desk.processor.component.askAll }
  { p with cancelled := true, desk := { p.desk with reader := p.desk.reader.cancel, processor } }

def startReader (p : Pipeline S H K) : Pipeline S H K × Except LifecycleError Unit :=
  match p.desk.reader.start p.time p.cancelled with
  | .ok reader => ({ p with desk := { p.desk with reader } }, .ok ())
  | .error e => (p, .error e)

def startProcessor (p : Pipeline S H K) : Pipeline S H K × Except LifecycleError Unit :=
  match p.desk.processor.start p.cancelled with
  | .ok processor => ({ p with desk := { p.desk with processor } }, .ok ())
  | .error e => (p, .error e)

def stopReader (p : Pipeline S H K) : Pipeline S H K × Except LifecycleError Unit :=
  let (reader, r) := p.desk.reader.stop
  ({ p with desk := { p.desk with reader } }, r)

/-- Starts the reader, then the processor. If the processor cannot be started, the reader is stopped
again. -/
def start (p : Pipeline S H K) : Pipeline S H K × Except PipelineError Unit :=
  match p.startReader with
  | (p, .error e) => (p, .error (.lifecycle e))
  | (p, .ok ()) =>
    match p.startProcessor with
    | (p, .ok ()) => (p.note .started, .ok ())
    | (p, .error e) =>
      match p.stopReader with
      | (p, .ok ()) => (p, .error (.lifecycle e))
      | (p, .error rollback) => (p.note (.rollbackFailed rollback), .error (.lifecycle e))

def isRunning (p : Pipeline S H K) : Bool :=
  p.desk.processor.isRunning && p.desk.reader.isRunning

variable [MessageSource S] [Service H] [MessageSink K]

/-- Stops the processor. A loop that is about to read finds out whether there is an inbox first. -/
def stopProcessor (p : Pipeline S H K) : Pipeline S H K × Except LifecycleError Unit :=
  match p.desk.processor.claim with
  | .error e => (p, .error e)
  | .ok (_, processor) =>
    let desk := ({ p.desk with processor }.turn p.time).1
    let processor := desk.processor.exit.getD desk.processor
    let component := processor.component.finish
    ({ p with desk := { desk with processor := { processor with component } } }, .ok ())

def closeWriter (p : Pipeline S H K) : Pipeline S H K × Except WriteError Unit :=
  let (writer, r) := p.desk.writer.close
  ({ p with desk := { p.desk with writer } }, r)

def firstError (processor reader : Except LifecycleError Unit) (writer : Except WriteError Unit) :
    Except PipelineError Unit :=
  match processor, reader, writer with
  | .error e, _, _ => .error (.lifecycle e)
  | _, .error e, _ => .error (.lifecycle e)
  | _, _, .error e => .error (.writer e)
  | _, _, _ => .ok ()

/-- Stops the processor, then the reader, then closes the writer, each whatever became of the one
before. -/
def shutdown (p : Pipeline S H K) : Pipeline S H K × Except PipelineError Unit :=
  let (p, processor) := p.stopProcessor
  let (p, reader) := p.stopReader
  let (p, writer) := p.closeWriter
  (p.note .stopped, firstError processor reader writer)

/-- Puts down that a loop has moved: whatever it waits for now, the other one has waited longer. -/
def putBehind (p : Pipeline S H K) (t : Turn) (moved : Bool) : Pipeline S H K :=
  if moved then { p with earlier := t.other } else p

def move (p : Pipeline S H K) : Turn → Pipeline S H K × Bool
  | .reader =>
    let (reader, moved) := p.desk.reader.turn p.time
    ({ p with desk := { p.desk with reader } }.putBehind .reader moved, moved)
  | .processor =>
    let (desk, moved) := p.desk.turn p.time
    ({ p with desk }.putBehind .processor moved, moved)

/-- Lets the loops take turns until both of them wait, for so many moves at most. `stuck` says that the
other loop waits. -/
def takeTurns : Nat → Turn → Bool → Pipeline S H K → Pipeline S H K
  | 0, _, _, p => p
  | n + 1, t, stuck, p =>
    match p.move t with
    | (p, true) => takeTurns n t false p
    | (p, false) => if stuck then p else takeTurns n t.other true p

/-- How many moves the loops may make before time passes. -/
def patience : Nat := 100000

def settle (p : Pipeline S H K) : Pipeline S H K := takeTurns patience .reader false p

/-- Lets a time come. If both loops have waited for it, the one that began to wait earlier goes first. -/
def wake (time : Nat) (p : Pipeline S H K) : Pipeline S H K :=
  takeTurns patience p.earlier false { p with time }

/-- The next moment that a loop waits for, if it comes before the limit is over. -/
def nextDue? (p : Pipeline S H K) (limit : Nat) : Option Nat :=
  let dues := [p.desk.reader.due?, p.desk.processor.due?].filterMap id
  (dues.filter fun t => p.time < t ∧ t ≤ limit).min?

/-- Lets time pass up to a limit, through so many moments at most. -/
def advanceTo (limit : Nat) : Nat → Pipeline S H K → Pipeline S H K
  | 0, p => p
  | n + 1, p =>
    match p.nextDue? limit with
    | some t => advanceTo limit n (p.wake t)
    | none => { p with time := limit }.settle

def advance (p : Pipeline S H K) (millis : Nat) : Pipeline S H K :=
  advanceTo (p.time + millis) (millis + 1) p.settle

end Pipeline

end CourierDispatch
