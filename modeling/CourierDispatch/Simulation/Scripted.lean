import CourierDispatch.Broker.LineSink
import CourierDispatch.Broker.MemoryTopic
import CourierDispatch.Catalogue
import CourierDispatch.UseCases

/-!
# Scripted collaborators

Collaborators that do what a script says: use cases with given answers, a source that fails, a sink that
is slow or fails, and a stream of bytes with limited room.
-/

namespace CourierDispatch.Simulation

inductive CourierAnswer
  | courier (k : CourierId)
  /-- No courier: there is none to assign, or none to release. -/
  | none
  /-- No courier for an order, by default the one that is asked about. -/
  | noEligible (order : Option OrderId)
  | internal (text : String)
deriving DecidableEq, Repr

/-- A scripted answer and how many milliseconds it takes. -/
structure CourierLine where
  delay : Nat := 0
  answer : CourierAnswer := .none
deriving DecidableEq, Repr

/-- Use cases that answer by a script, and what they have been asked, the latest first. -/
structure ScriptedCouriers where
  script : List CourierLine
  calls : List (CommandKind × OrderId × Context) := []
deriving DecidableEq, Repr

namespace ScriptedCouriers

def next (s : ScriptedCouriers) (kind : CommandKind) (ctx : Context) (o : OrderId) :
    CourierLine × ScriptedCouriers :=
  (s.script.head?.getD {}, { script := s.script.tail, calls := (kind, o, ctx) :: s.calls })

def reply {α : Type} (s : ScriptedCouriers) (delay : Nat) (a : α) : Call ScriptedCouriers α :=
  { latency := some delay, begun := s, finish := fun s => (s, a) }

def error? (o : OrderId) : CourierAnswer → Option UseCaseError
  | .noEligible other => some (.noEligibleCourier (other.getD o))
  | .internal text => some (.internal text)
  | _ => Option.none

instance : UseCases ScriptedCouriers where
  assign s ctx o :=
    let (line, s) := s.next .assignCourier ctx o
    s.reply line.delay <|
      match line.answer with
      | .courier k => .ok k
      | a => .error ((error? o a).getD (.noEligibleCourier o))
  unassign s ctx o :=
    let (line, s) := s.next .unassignCourier ctx o
    s.reply line.delay <|
      match line.answer, error? o line.answer with
      | .courier k, _ => .ok (some k)
      | _, some e => .error e
      | _, Option.none => .ok Option.none

end ScriptedCouriers

/-- A topic whose reads fail as often as there are errors. Its messages seem to come from elsewhere. -/
structure FailingSource where
  topic : MemoryTopic
  errors : List BrokerError := []
  partition : Int := 0
  offsetBase : Int := 0
deriving DecidableEq, Repr

instance : MessageSource FailingSource where
  poll s :=
    match s.errors with
    | e :: errors => ({ s with errors }, some (.error e))
    | [] =>
      let (topic, r) := s.topic.poll
      ({ s with topic }, r.map (·.map fun m =>
        { m with partition := s.partition, offset := m.offset + s.offsetBase }))

structure SinkLine where
  delay : Nat := 0
  error : Option BrokerError := none
deriving DecidableEq, Repr

structure ScriptedSink where
  topic : MemoryTopic
  script : List SinkLine := []
  closeError : Option BrokerError := none
deriving DecidableEq, Repr

instance : MessageSink ScriptedSink where
  write s batch :=
    let line := s.script.head?.getD {}
    { latency := some line.delay
      begun := { s with script := s.script.tail }
      finish := fun s =>
        match line.error with
        | some e => (s, .error e)
        | none =>
          let (topic, r) := s.topic.write batch
          ({ s with topic }, r) }
  close s :=
    match s.closeError with
    | some e => (s, .error e)
    | none => ({ s with topic := s.topic.close }, .ok ())

/-- A stream of bytes that is full at some point, if it has a limit. -/
structure LimitedWriter where
  limit : Option Nat
  written : List UInt8 := []
  flushes : Nat := 0
  shutdowns : Nat := 0
deriving DecidableEq, Repr

namespace LimitedWriter

def write (w : LimitedWriter) (bs : List UInt8) : LimitedWriter × Except String Unit :=
  match w.limit with
  | none => ({ w with written := w.written ++ bs }, .ok ())
  | some limit =>
    let room := limit - w.written.length
    ({ w with written := w.written ++ bs.take room },
      if bs.length ≤ room then .ok () else .error "disk full")

instance : ByteWriter LimitedWriter where
  write := write
  flush w := ({ w with flushes := w.flushes + 1 }, .ok ())
  shutdown w := ({ w with shutdowns := w.shutdowns + 1 }, .ok ())

end LimitedWriter

end CourierDispatch.Simulation
