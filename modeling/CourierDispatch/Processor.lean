import CourierDispatch.Processor.DispatchLoop

/-!
# The processor

The processor drives commands from a reader through a handler to a writer. `Desk` is all that its loop
works with; `Desk.step` makes one move of the loop.
-/

namespace CourierDispatch

structure Processor (H W : Type) where
  handler : H
  retry : Retry := {}
  /-- The delays while the reader is stopped. -/
  idleBackoff : Backoff := .standard
  component : Component (DispatchLoop H W) := { label := "processor" }

namespace Processor

variable {H W : Type}

/-- Starts the processor. The run is asked to end at once if `asked` is set. -/
def start (p : Processor H W) (asked : Bool) : Except LifecycleError (Processor H W) :=
  match p.component.start ⟨asked, {}⟩ with
  | .ok component => .ok { p with component }
  | .error e => .error e

def claim (p : Processor H W) : Except LifecycleError (Nat × Processor H W) :=
  match p.component.claim with
  | .ok (i, component) => .ok (i, { p with component })
  | .error e => .error e

def isRunning (p : Processor H W) : Bool := p.component.isRunning

/-- Ends the latest run, if it has been asked to and waits for something. -/
def exit (p : Processor H W) : Option (Processor H W) :=
  match p.component.latest? with
  | some ⟨true, l⟩ =>
    if l.mayExit then some { p with component := p.component.setLatest l.exit } else none
  | _ => none

def setLoop (p : Processor H W) (l : DispatchLoop H W) : Processor H W :=
  { p with component := p.component.setLatest l }

def due? (p : Processor H W) : Option Nat := (p.component.latest?).bind (·.loop.due?)

def notices (p : Processor H W) : List ProcessorNotice :=
  p.component.runs.flatMap fun run => run.loop.notices.reverse

def dropped (p : Processor H W) : Nat := (p.component.runs.map (·.loop.dropped)).foldl (· + ·) 0

end Processor

/-- A reader, a processor and a writer that work together. -/
structure Desk (S H K : Type) where
  reader : Reader S
  processor : Processor H (Writer K)
  writer : Writer K

namespace Desk

variable {S H K : Type} [Service H] [MessageSink K]

def setLoop (d : Desk S H K) (l : DispatchLoop H (Writer K)) : Desk S H K :=
  { d with processor := d.processor.setLoop l }

def handle (d : Desk S H K) (time : Nat) (l : DispatchLoop H (Writer K)) (c : Command) :
    Desk S H K :=
  let call := Service.call d.processor.handler c
  let stage := .handling c (call.latency.map (time + ·)) call.finish
  { d with processor := { d.processor with handler := call.begun } }.setLoop
    { l with stage, idle := 0 }

/-- Begins to write a result. A writer that is closed does not trouble its sink. -/
def publish (d : Desk S H K) (time : Nat) (l : DispatchLoop H (Writer K)) (c : Command)
    (r : Result) (retries : Nat) : Desk S H K :=
  let call := d.writer.write (some r)
  let stage := .writing c r retries (call.latency.map (time + ·)) call.finish
  let l := if d.writer.closed then l else l.note (.writing time)
  { d with writer := call.begun }.setLoop { l with stage }

/-- Makes a move of the dispatch loop, if there is one to make by now. -/
def step (d : Desk S H K) (time : Nat) (reportFirst : Bool) : Option (Desk S H K) :=
  match d.processor.component.latest? with
  | none => none
  | some ⟨_, l⟩ =>
    match l.stage with
    | .exited => none
    | .next =>
      match d.reader.channels with
      | none => some (d.setLoop (l.readFailed d.processor.idleBackoff time .channelClosed))
      | some i => some (d.setLoop { l with stage := .reading i })
    | .reading i =>
      match d.reader.takeFrom i reportFirst with
      | (_, none) => none
      | (reader, some (.ok c)) => some ({ d with reader }.handle time l c)
      | (reader, some (.error e)) =>
        some ({ d with reader }.setLoop (l.readFailed d.processor.idleBackoff time e))
    | .idling due => if due ≤ time then some (d.setLoop { l with stage := .next }) else none
    | .handling c due finish =>
      if DispatchLoop.isDue due time then
        let (handler, outcome) := finish d.processor.handler
        some ({ d with processor := { d.processor with handler } }.setLoop (l.handled c outcome))
      else none
    | .publishing c r retries => some (d.publish time l c r retries)
    | .writing c r retries due finish =>
      if DispatchLoop.isDue due time then
        let (writer, answer) := finish d.writer
        some ({ d with writer }.setLoop (l.written d.processor.retry time c r retries answer))
      else none
    | .pausing c r retries due =>
      if due ≤ time then some (d.setLoop { l with stage := .publishing c r retries }) else none

/-- Makes a move of the dispatch loop, which ends wherever it waits once it is asked to. -/
def turn (d : Desk S H K) (time : Nat) : Desk S H K × Bool :=
  match d.processor.exit with
  | some processor => ({ d with processor }, true)
  | none =>
    match d.step time false with
    | some d => (d, true)
    | none => (d, false)

end Desk

end CourierDispatch
