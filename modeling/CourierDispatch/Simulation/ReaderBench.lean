import CourierDispatch.Reader
import CourierDispatch.Simulation.Scripted

/-!
# A bench for readers

A reader with a clock, and perhaps somebody in the background who waits for a command.
-/

namespace CourierDispatch.Simulation

/-- A read in the background: of the inbox of a run, or with its answer. -/
inductive Waiter
  | waiting (inbox : Nat)
  | answered (a : Except ReadError Command)

structure ReaderBench where
  reader : Reader FailingSource
  time : Nat := 0
  cancelled : Bool := false
  waiter : Option Waiter := none

namespace ReaderBench

/-- How many moves a loop may make before time passes. -/
def patience : Nat := 100000

def settleLoop (b : ReaderBench) : ReaderBench :=
  { b with reader := b.reader.settle b.time patience }

def serve (b : ReaderBench) : ReaderBench :=
  match b.waiter with
  | some (.waiting i) =>
    if b.cancelled then { b with waiter := some (.answered (.error .cancelled)) }
    else
      match b.reader.takeFrom i false with
      | (reader, some a) => { b with reader, waiter := some (.answered a) }
      | (_, none) => b
  | _ => b

def settle (b : ReaderBench) : ReaderBench := b.settleLoop.serve.settleLoop

def start (b : ReaderBench) : ReaderBench × Except LifecycleError Unit :=
  match b.reader.start b.time b.cancelled with
  | .ok reader => ({ b with reader }.settle, .ok ())
  | .error e => (b, .error e)

def stop (b : ReaderBench) : ReaderBench × Except LifecycleError Unit :=
  let (reader, r) := b.reader.stop
  ({ b with reader }.settle, r)

def onSource (b : ReaderBench) (f : FailingSource → FailingSource) : ReaderBench :=
  { b with reader := { b.reader with source := f b.reader.source } }.settle

def read (b : ReaderBench) (cancelled : Bool) :
    ReaderBench × Option (Except ReadError Command) :=
  if cancelled && b.reader.channels.isSome then (b, some (.error .cancelled))
  else
    let (reader, r) := b.reader.read false
    ({ b with reader }.settle, r)

/-- Reads until there is nothing to read, and gives the commands and the errors. -/
def readAll : Nat → ReaderBench → ReaderBench × List Command × List ReadError
  | 0, b => (b, [], [])
  | n + 1, b =>
    match b.read false with
    | (b, some (.ok c)) =>
      let (b, cs, es) := readAll n b
      (b, c :: cs, es)
    | (b, some (.error .channelClosed)) => (b, [], [])
    | (b, some (.error e)) =>
      let (b, cs, es) := readAll n b
      (b, cs, e :: es)
    | (b, none) => (b, [], [])

def spawnRead (b : ReaderBench) : ReaderBench :=
  let waiter :=
    match b.reader.channels with
    | some i => .waiting i
    | none => .answered (.error .channelClosed)
  { b with waiter := some waiter }.settle

def cancel (b : ReaderBench) : ReaderBench :=
  { b with cancelled := true, reader := b.reader.cancel }.settle

def advanceTo (limit : Nat) : Nat → ReaderBench → ReaderBench
  | 0, b => b
  | n + 1, b =>
    match b.reader.due? with
    | some t =>
      if b.time < t ∧ t ≤ limit then advanceTo limit n { b with time := t }.settle
      else { b with time := limit }.settle
    | none => { b with time := limit }.settle

def advance (b : ReaderBench) (millis : Nat) : ReaderBench :=
  advanceTo (b.time + millis) (millis + 1) b

end ReaderBench

end CourierDispatch.Simulation
