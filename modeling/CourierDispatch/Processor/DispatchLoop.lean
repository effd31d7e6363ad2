import CourierDispatch.Reader
import CourierDispatch.Service
import CourierDispatch.Writer

/-!
# The dispatch loop

While a processor runs, its loop reads command after command, has each of them handled, and publishes
the result if there is one. What fails for one command is logged, and the loop goes on with the next
one. While the reader is stopped the loop waits, the longer the more often it has found it so.
-/

namespace CourierDispatch

inductive ProcessorNotice
  | waitingForReader
  | readFailed (error : ReadError)
  | commandFailed (id name : String) (error : HandleError)
  /-- The sink is given a result, at this time. -/
  | writing (time : Nat)
  | retrying (attempt : Nat) (error : WriteError)
  | resultDropped (kind : ResultKind) (retries : Nat) (error : WriteError)
  | processed (id name : String) (result : Option ResultKind)
deriving DecidableEq, Repr

namespace ProcessorNotice

def record? : ProcessorNotice → Option Log.Record
  | waitingForReader => some ⟨.warn, "command channel closed, waiting for the reader", []⟩
  | readFailed e => some ⟨.warn, "read error", [("error", .text e.message)]⟩
  | commandFailed id name e =>
    some ⟨.warn, "command failed",
      [("command_id", .text id), ("command", .text name), ("error", .text e.message)]⟩
  | writing _ => none
  | retrying n e =>
    some ⟨.warn, "publish failed, retrying", [("attempt", .number n), ("error", .text e.message)]⟩
  | resultDropped k n e =>
    some ⟨.error, "result dropped",
      [("result", .text k.wireName), ("retries", .number n), ("error", .text e.message)]⟩
  | processed id name none =>
    some ⟨.info, "command processed", [("command_id", .text id), ("command", .text name)]⟩
  | processed id name (some k) =>
    some ⟨.info, "command processed",
      [("command_id", .text id), ("command", .text name), ("result", .text k.wireName)]⟩

end ProcessorNotice

/-- Where a dispatch loop is. `H` handles commands and `W` writes results. -/
inductive DispatchStage (H W : Type)
  /-- About to read. -/
  | next
  /-- Waiting for a command in the inbox of a run of the reader. -/
  | reading (inbox : Nat)
  /-- Waiting until a time, as the reader is stopped. -/
  | idling (due : Nat)
  /-- Waiting for a command to be handled. -/
  | handling (c : Command) (due : Option Nat) (finish : H → H × Outcome)
  /-- About to publish a result, after so many retries. -/
  | publishing (c : Command) (r : Result) (retries : Nat)
  /-- Waiting for the writer. -/
  | writing (c : Command) (r : Result) (retries : Nat) (due : Option Nat)
    (finish : W → W × Except WriteError Unit)
  /-- Waiting until a time before the next retry. -/
  | pausing (c : Command) (r : Result) (retries : Nat) (due : Nat)
  | exited

/-- A dispatch loop: where it is, how often it has found the reader stopped since the last command, how
many results it has dropped, and what has been noticed of it, the latest first. -/
structure DispatchLoop (H W : Type) where
  stage : DispatchStage H W := .next
  idle : Nat := 0
  dropped : Nat := 0
  notices : List ProcessorNotice := []

namespace DispatchLoop

variable {H W : Type}

def note (l : DispatchLoop H W) (n : ProcessorNotice) : DispatchLoop H W :=
  { l with notices := n :: l.notices }

def exit (l : DispatchLoop H W) : DispatchLoop H W := { l with stage := .exited }

def done (l : DispatchLoop H W) (c : Command) (result : Option ResultKind) : DispatchLoop H W :=
  { l with stage := .next }.note (.processed c.id c.name result)

def readFailed (backoff : Backoff) (time : Nat) (l : DispatchLoop H W) :
    ReadError → DispatchLoop H W
  | .cancelled => l.exit
  | .channelClosed =>
    let l := if l.idle = 0 then l.note .waitingForReader else l
    { l with
      stage := .idling (time + Backoff.timerMillis (backoff.delay l.idle)), idle := countUp l.idle }
  | e => { l with stage := .next }.note (.readFailed e)

def handled (l : DispatchLoop H W) (c : Command) : Outcome → DispatchLoop H W
  | .ok (some r) => { l with stage := .publishing c r 0 }
  | .ok none => l.done c none
  | .error e => (l.note (.commandFailed c.id c.name e)).done c none

/-- Takes what came of publishing a result: it is published, tried again after a pause, or dropped. -/
def written (retry : Retry) (time : Nat) (l : DispatchLoop H W) (c : Command) (r : Result)
    (retries : Nat) : Except WriteError Unit → DispatchLoop H W
  | .ok () => l.done c (some r.kind)
  | .error e =>
    if e.isRetryable ∧ retries < retry.attempts then
      { l with stage := .pausing c r (retries + 1) (time + Backoff.timerMillis retry.delay) }.note
        (.retrying (retries + 1) e)
    else
      ({ l with dropped := l.dropped + 1 }.note (.resultDropped r.kind retries e)).done c
        (some r.kind)

def isDue (due : Option Nat) (time : Nat) : Bool :=
  match due with
  | some t => t ≤ time
  | none => false

def due? (l : DispatchLoop H W) : Option Nat :=
  match l.stage with
  | .idling due | .pausing _ _ _ due => some due
  | .handling _ due _ | .writing _ _ _ due _ => due
  | _ => none

/-- Whether the loop ends here when it is asked to. It does so wherever it waits. -/
def mayExit (l : DispatchLoop H W) : Bool :=
  match l.stage with
  | .next | .exited => false
  | _ => true

end DispatchLoop

end CourierDispatch
