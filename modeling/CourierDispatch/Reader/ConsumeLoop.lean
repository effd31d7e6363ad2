import CourierDispatch.Backoff
import CourierDispatch.Log
import CourierDispatch.Reader.Inbox

/-!
# The consume loop

While a reader runs, its loop reads message after message from the source, and puts the commands that
they hold into the inbox. It reports messages that hold no command and goes on. When the source fails
it reports that too and waits, the longer the more often it has failed in a row.
-/

namespace CourierDispatch

inductive ReaderNotice
  /-- The source is asked for a message, at this time. -/
  | asking (time : Nat)
  | readFailed (error : BrokerError) (failures : Nat) (retryMillis : Nat)
  | skipped (partition offset : Int) (error : CodecError)
  | reportDropped (report : ReadError)
deriving DecidableEq, Repr

namespace ReaderNotice

def record? : ReaderNotice → Option Log.Record
  | asking _ => none
  | readFailed e n ms =>
    some ⟨.warn, "broker read failed",
      [("error", .text e.message), ("consecutive_failures", .number n), ("retry_in_ms", .number ms)]⟩
  | skipped p o e =>
    some ⟨.warn, "skipping malformed message",
      [("partition", .number p), ("offset", .number o), ("error", .text e.message)]⟩
  | reportDropped e =>
    some ⟨.warn, "error channel full, dropping report", [("error", .text e.message)]⟩

end ReaderNotice

inductive ConsumeStage
  /-- Waiting for the source. -/
  | reading
  /-- Waiting until a time, after a failure. -/
  | waiting (due : Nat)
  /-- Waiting for room in the inbox. -/
  | sending (c : Command)
  | exited

/-- A consume loop: where it is, how often the source has failed in a row, its inbox, and what has been
noticed of it, the latest first. -/
structure ConsumeLoop where
  stage : ConsumeStage := .reading
  failures : Nat := 0
  inbox : Inbox := {}
  dropped : Nat := 0
  notices : List ReaderNotice := []

namespace ConsumeLoop

def begin (time : Nat) : ConsumeLoop := { notices := [.asking time] }

def note (l : ConsumeLoop) (n : ReaderNotice) : ConsumeLoop :=
  { l with notices := n :: l.notices }

def ask (l : ConsumeLoop) (time : Nat) : ConsumeLoop :=
  { l with stage := .reading }.note (.asking time)

def report (l : ConsumeLoop) (e : ReadError) : ConsumeLoop :=
  match l.inbox.report? e with
  | some inbox => { l with inbox }
  | none => { l with dropped := l.dropped + 1 }.note (.reportDropped e)

def decode (format : WireFormat) (m : Message) : Except CodecError Command :=
  (Command.decode format m.value).map fun c => { c with context := Context.ofHeaders m.headers }

def receive (format : WireFormat) (backoff : Backoff) (time : Nat) (l : ConsumeLoop) :
    Except BrokerError Message → ConsumeLoop
  | .error e =>
    let delay := backoff.delay l.failures
    let failures := countUp l.failures
    let l := { l with failures }.note (.readFailed e failures (delay / Backoff.millisecond))
    { l.report (.transport e) with stage := .waiting (time + Backoff.timerMillis delay) }
  | .ok m =>
    let l := { l with failures := 0 }
    match decode format m with
    | .ok c => { l with stage := .sending c }
    | .error e =>
      ((l.note (.skipped m.partition m.offset e)).report (.decode m.partition m.offset e)).ask time

def exit (l : ConsumeLoop) : ConsumeLoop :=
  { l with stage := .exited, inbox := l.inbox.close }

/-- Makes a move, if there is one to make by now. -/
def step {S : Type} [MessageSource S] (format : WireFormat) (backoff : Backoff) (time : Nat)
    (source : S) (l : ConsumeLoop) : S × Option ConsumeLoop :=
  match l.stage with
  | .exited => (source, none)
  | .reading =>
    let (source, r) := MessageSource.poll source
    (source, r.map (l.receive format backoff time))
  | .waiting due => (source, if due ≤ time then some (l.ask time) else none)
  | .sending c =>
    (source, (l.inbox.send? c).map fun inbox => { l with inbox }.ask time)

def due? (l : ConsumeLoop) : Option Nat :=
  match l.stage with
  | .waiting due => some due
  | _ => none

end ConsumeLoop

end CourierDispatch
