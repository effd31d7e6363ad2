import CourierDispatch.Broker.MemoryTopic
import CourierDispatch.Pipeline
import CourierDispatch.Proofs.Ledger
import CourierDispatch.Proofs.Processor.Moves

/-!
# What may happen to a pipeline that is interrupted

At any moment a pipeline may be cancelled, or one of its loops be stopped. A loop that has been asked to
end does so where it waits, but it may move before, as often as what it waits for comes first. It may
also take a command out of the inbox and end with the command unhandled. Every order of all this is a
list of occurrences.
-/

namespace CourierDispatch

section

variable {S H K : Type}

/-- The dispatch loop takes a command and ends, if it has been asked to. -/
def Desk.turnAway (d : Desk S H K) (reportFirst : Bool) : Desk S H K :=
  match d.processor.component.latest? with
  | some ⟨true, l⟩ =>
    match l.stage with
    | .reading i =>
      match d.reader.takeFrom i reportFirst with
      | (reader, some (.ok _)) => { d with reader }.setLoop l.exit
      | _ => d
    | _ => d
  | _ => d

end

/-- What may happen to a pipeline that is not started again. -/
inductive Occurrence
  /-- A message arrives at the source. -/
  | arrive (key : Option (List UInt8)) (l : Letter)
  /-- The consume loop may move. -/
  | reader
  /-- The dispatch loop may move. -/
  | processor (reportFirst : Bool)
  /-- The consume loop ends, if it has been asked to. -/
  | readerEnds
  /-- The dispatch loop ends where it waits, if it has been asked to. -/
  | processorEnds
  | turnAway (reportFirst : Bool)
  /-- The whole program is asked to end. -/
  | cancel
  /-- A stop of the reader begins, and asks its loop to end. -/
  | claimReader
  | claimProcessor
  /-- A stop of the reader is carried through. -/
  | stopReader
  | stopProcessor
  | pass (millis : Nat)
deriving DecidableEq, Repr

def Occurrence.letter? : Occurrence → Option Letter
  | arrive _ l => some l
  | _ => none

namespace Pipeline

variable {H K : Type} [Service H] [MessageSink K]

def undergo (p : Pipeline MemoryTopic H K) : Occurrence → Pipeline MemoryTopic H K
  | .arrive key l => p.setSource (p.desk.reader.source.publish key l.value l.headers).1
  | .reader => { p with desk := { p.desk with reader := (p.desk.reader.step p.time).1 } }
  | .processor reportFirst => { p with desk := (p.desk.step p.time reportFirst).getD p.desk }
  | .readerEnds =>
    { p with desk := { p.desk with reader := p.desk.reader.exit.getD p.desk.reader } }
  | .processorEnds =>
    { p with desk := { p.desk with processor := p.desk.processor.exit.getD p.desk.processor } }
  | .turnAway reportFirst => { p with desk := p.desk.turnAway reportFirst }
  | .cancel => p.cancel
  | .claimReader =>
    match p.desk.reader.claim with
    | .ok (_, reader) => { p with desk := { p.desk with reader } }
    | .error _ => p
  | .claimProcessor =>
    match p.desk.processor.claim with
    | .ok (_, processor) => { p with desk := { p.desk with processor } }
    | .error _ => p
  | .stopReader => p.stopReader.1
  | .stopProcessor => p.stopProcessor.1
  | .pass millis => { p with time := p.time + millis }

def undergoAll (p : Pipeline MemoryTopic H K) (os : List Occurrence) : Pipeline MemoryTopic H K :=
  os.foldl undergo p

def takenUp (p : Pipeline MemoryTopic H K) : Occurrence → Option Command
  | .processor reportFirst => p.desk.next? reportFirst
  | _ => none

def handled (p : Pipeline MemoryTopic H K) : List Occurrence → List Command
  | [] => []
  | o :: os => (p.takenUp o).toList ++ (p.undergo o).handled os

/-- A shutdown stops both loops, the dispatch loop first, and closes the writer then. -/
theorem desk_shutdown (p : Pipeline MemoryTopic H K) :
    p.shutdown.1.desk =
      { (p.undergoAll [.stopProcessor, .stopReader]).desk with
        writer := (p.undergoAll [.stopProcessor, .stopReader]).desk.writer.close.1 } := rfl

end Pipeline

end CourierDispatch
