import CourierDispatch.Broker
import CourierDispatch.Command

/-!
# The inbox of a reader

A reader hands commands and reports of failures to whoever reads from it. The inbox has room for one of
each. A command waits until there is room; a report that finds no room is dropped.
-/

namespace CourierDispatch

/-- Why a read brought no command. -/
inductive ReadError
  | cancelled
  | channelClosed
  /-- A message was skipped. -/
  | decode (partition offset : Int) (source : CodecError)
  /-- The broker failed. -/
  | transport (source : BrokerError)
deriving DecidableEq, Repr

def ReadError.message : ReadError → String
  | cancelled => "read cancelled"
  | channelClosed => "command channel closed"
  | decode p o e => s!"malformed message at partition {p} offset {o}: {e.message}"
  | transport e => s!"broker read failed: {e.message}"

/-- What a reader has to hand out, and whether there is more to come. -/
structure Inbox where
  command : Option Command := none
  report : Option ReadError := none
  isOpen : Bool := true

namespace Inbox

def send? (i : Inbox) (c : Command) : Option Inbox :=
  match i.command with
  | none => some { i with command := some c }
  | some _ => none

def report? (i : Inbox) (e : ReadError) : Option Inbox :=
  match i.report with
  | none => some { i with report := some e }
  | some _ => none

def close (i : Inbox) : Inbox := { i with isOpen := false }

/-- Takes out a command or a report, if there is one, and learns when there will be none. Neither comes
first by right: where both would do, `reportFirst` decides. -/
def take (reportFirst : Bool) (i : Inbox) : Inbox × Option (Except ReadError Command) :=
  match i.command, i.report with
  | some c, none => ({ i with command := none }, some (.ok c))
  | some c, some e =>
    if reportFirst then ({ i with report := none }, some (.error e))
    else ({ i with command := none }, some (.ok c))
  | none, some e =>
    if i.isOpen || reportFirst then ({ i with report := none }, some (.error e))
    else (i, some (.error .channelClosed))
  | none, none => (i, if i.isOpen then none else some (.error .channelClosed))

end Inbox

end CourierDispatch
