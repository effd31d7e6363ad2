import CourierDispatch.Call
import CourierDispatch.Context

/-!
# Brokers

A broker delivers messages from a source and takes messages into a sink. A source is asked again and
again until it has a message; asking it and turning away loses nothing.
-/

namespace CourierDispatch

structure Message where
  topic : String
  partition : Int
  offset : Int
  key : Option (List UInt8)
  value : List UInt8
  headers : Headers
deriving DecidableEq, Repr

/-- A message to a topic. -/
structure Outbound where
  topic : String
  key : Option (List UInt8)
  value : List UInt8
  headers : Headers
deriving DecidableEq, Repr

/-- What a broker may answer instead. -/
inductive BrokerError
  /-- The broker was closed by its owner. -/
  | closed
  | unavailable (reason : String)
  | unknownTopic (topic : String)
  | io (text : String)
deriving DecidableEq, Repr

def BrokerError.message : BrokerError → String
  | closed => "broker client closed"
  | unavailable reason => s!"broker unavailable: {reason}"
  | unknownTopic topic => s!"unknown topic: {topic}"
  | io text => s!"broker i/o error: {text}"

class MessageSource (S : Type) where
  /-- The next message or an error, if there is one by now. -/
  poll : S → S × Option (Except BrokerError Message)

class MessageSink (S : Type) where
  /-- Publishes a batch: all of it, or an error is the answer. -/
  write : S → List Outbound → Call S (Except BrokerError Unit)
  close : S → S × Except BrokerError Unit

/-- The first message of a batch that is addressed to another topic. -/
def stray? (topic : String) (batch : List Outbound) : Option Outbound :=
  batch.find? (·.topic ≠ topic)

end CourierDispatch
