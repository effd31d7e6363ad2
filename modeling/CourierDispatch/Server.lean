import CourierDispatch.Broker.LineSink
import CourierDispatch.Broker.LineSource
import CourierDispatch.Catalogue
import CourierDispatch.Pipeline
import CourierDispatch.Pool
import CourierDispatch.Settings

/-!
# The server

The server is a pipeline from lines of input to lines of output, with a pool of couriers. It takes what
arrives and lets everything happen that follows from it. Timers play no part: the pool answers at once,
and neither of the streams fails.
-/

namespace CourierDispatch

/-- A stream that takes everything, and what it has taken since it was last emptied. -/
structure Outlet where
  taken : List UInt8 := []
deriving DecidableEq, Repr

instance : ByteWriter Outlet where
  write w bs := ({ w with taken := w.taken ++ bs }, .ok ())
  flush w := (w, .ok ())
  shutdown w := (w, .ok ())

/-- A pipeline between lines. -/
abbrev Server := Pipeline LineSource (Stack (Dispatcher Pool.Drawing)) (LineSink Outlet)

namespace Server

def pool (s : Settings) : Pool := .ofRoster s.roster

/-- A started server. One stream of draws picks couriers, the other one makes the ids of results. -/
def launch (s : Settings) (picks ids : Draws) : Server × Except PipelineError Unit :=
  let source : LineSource := { topic := s.config.commandTopic }
  let sink : LineSink Outlet := { topic := s.config.resultTopic, writer := {} }
  (Pipeline.ofConfig s.config source sink ⟨⟨pool s, picks⟩, ids⟩).start

def receive (p : Server) (more : List Arrival) : Server :=
  (p.setSource (p.desk.reader.source.feed more)).settle

def collect (p : Server) : Server × List UInt8 :=
  let sink := p.desk.writer.sink
  (p.setSink { sink with writer := {} }, sink.writer.taken)

/-- Closes the input when everything else has been shut down. -/
def close (p : Server) : Server × Except PipelineError Unit :=
  let (p, r) := p.cancel.settle.shutdown
  (p.setSource p.desk.reader.source.close, r)

/-- The bytes that are written for an input that arrives in chunks and comes to its end. -/
def transcript (s : Settings) (picks ids : Draws) (chunks : List (List UInt8)) : List UInt8 :=
  let p := chunks.foldl (fun p bs => p.receive (bs.map .byte)) (launch s picks ids).1
  (p.receive [.finish]).close.1.collect.2

def logTarget : String := "dispatch_server"

def startup (s : Settings) : Log.Record :=
  ⟨.info, "dispatch server starting",
    [("catalogue_version", .number catalogueVersion), ("command_topic", .text s.config.commandTopic),
      ("result_topic", .text s.config.resultTopic), ("wire_format", .text s.config.format.name),
      ("couriers", .number (pool s).size)]⟩

def farewell : Log.Record := ⟨.info, "dispatch server stopped", []⟩

def journal (p : Server) : List (String × List Log.Record) :=
  [("dispatch_server::broker::lines", p.desk.reader.source.records),
    ("dispatch_server::pipeline::reader", p.desk.reader.notices.filterMap (·.record?)),
    ("dispatch_server::pipeline::processor", p.desk.processor.notices.filterMap (·.record?)),
    ("dispatch_server::pipeline::app", p.notices.reverse.map (·.record))]

/-- The records of a journal that are missing in an earlier one. -/
def news (earlier later : List (String × List Log.Record)) : List (String × Log.Record) :=
  later.flatMap fun (target, rs) =>
    (rs.drop ((earlier.lookup target).map List.length |>.getD 0)).map fun r => (target, r)

end Server

end CourierDispatch
