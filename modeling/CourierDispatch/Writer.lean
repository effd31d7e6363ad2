import CourierDispatch.Broker
import CourierDispatch.Command

/-!
# The result writer

The writer puts results into messages and publishes them one at a time. It retries nothing. Once it is
closed it writes nothing any more.
-/

namespace CourierDispatch

inductive WriteError
  | encode (source : CodecError)
  | publish (source : BrokerError)
  | closed
deriving DecidableEq, Repr

namespace WriteError

def message : WriteError → String
  | encode e => s!"result encoding failed: {e.message}"
  | publish e => s!"publish failed: {e.message}"
  | closed => "result writer closed"

/-- Whether another try may succeed. Only a broker that is not closed is worth it. -/
def isRetryable : WriteError → Bool
  | publish .closed => false
  | publish _ => true
  | _ => false

end WriteError

structure Writer (K : Type) where
  sink : K
  topic : String
  format : WireFormat
  closed : Bool := false

namespace Writer

variable {K : Type}

/-- The message of a result: its key is the id, its headers are the context. -/
def message (w : Writer K) (r : Result) : Outbound :=
  { topic := w.topic
    key := some (Utf8.bytes r.id.toText)
    value := r.encode w.format
    headers := r.context.toHeaders }

variable [MessageSink K]

/-- Publishes a result. Nothing to publish is no error. -/
def write (w : Writer K) : Option Result → Call (Writer K) (Except WriteError Unit)
  | none => .now w (.ok ())
  | some r =>
    if w.closed then .now w (.error .closed)
    else
      (MessageSink.write w.sink [w.message r]).within w sink (fun sink w => { w with sink })
        (·.mapError .publish)

/-- Closes the writer and its sink. The writer is closed even if the sink fails to close. -/
def close (w : Writer K) : Writer K × Except WriteError Unit :=
  if w.closed then (w, .error .closed)
  else
    let (sink, r) := MessageSink.close w.sink
    ({ w with sink, closed := true }, r.mapError .publish)

end Writer

end CourierDispatch
