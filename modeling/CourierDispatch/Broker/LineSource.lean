import CourierDispatch.Broker
import CourierDispatch.Log

/-!
# Messages from lines

A line source reads a stream of bytes. Every line is the value of a message, without the line breaks at
its end; blank lines are skipped. A line that has not come to its end stays with the source until the
rest of it arrives. When the stream is over, the source waits for ever.
-/

namespace CourierDispatch

inductive Arrival
  | byte (b : UInt8)
  /-- The stream fails once. -/
  | failure (text : String)
  /-- The stream is over. -/
  | finish
deriving DecidableEq, Repr

/-- A stream of bytes read as messages. -/
structure LineSource where
  topic : String
  /-- What has arrived and has not been looked at. -/
  arrivals : List Arrival := []
  /-- The line at the end of what has been looked at, the latest byte first. -/
  line : List UInt8 := []
  delivered : Nat := 0
  exhausted : Bool := false
  closed : Bool := false
deriving DecidableEq, Repr

namespace LineSource

def lineFeed : UInt8 := 10

def carriageReturn : UInt8 := 13

def isSpace (b : UInt8) : Bool := b = 32 || b = 9 || b = lineFeed || b = 12 || b = carriageReturn

/-- The value of a line, given with the latest byte first. A blank line has none. -/
def value? (line : List UInt8) : Option (List UInt8) :=
  let value := (line.dropWhile fun b => b = lineFeed || b = carriageReturn).reverse
  if value.all isSpace then none else some value

def message (s : LineSource) (value : List UInt8) : Message :=
  { topic := s.topic, partition := 0, offset := s.delivered, key := none, value, headers := [] }

/-- Looks at what has arrived, up to the first message or failure. -/
def pull (s : LineSource) (line : List UInt8) :
    List Arrival → LineSource × Option (Except BrokerError Message)
  | [] => ({ s with arrivals := [], line }, none)
  | .byte b :: rest =>
    if b = lineFeed then
      match value? line with
      | some v =>
        ({ s with arrivals := rest, line := [], delivered := s.delivered + 1 }, some (.ok (s.message v)))
      | none => pull s [] rest
    else pull s (b :: line) rest
  | .failure text :: rest => ({ s with arrivals := rest, line }, some (.error (.io text)))
  | .finish :: rest =>
    match value? line with
    | some v =>
      ({ s with arrivals := .finish :: rest, line := [], delivered := s.delivered + 1 },
        some (.ok (s.message v)))
    | none => ({ s with arrivals := rest, line := [], exhausted := true }, none)

/-- The next message, if its line has come to its end. -/
def poll (s : LineSource) : LineSource × Option (Except BrokerError Message) :=
  if s.closed then (s, some (.error .closed))
  else if s.exhausted then (s, none)
  else s.pull s.line s.arrivals

def feed (s : LineSource) (more : List Arrival) : LineSource :=
  { s with arrivals := s.arrivals ++ more }

def feedBytes (s : LineSource) (bs : List UInt8) : LineSource := s.feed (bs.map .byte)

def close (s : LineSource) : LineSource := { s with closed := true }

def records (s : LineSource) : List Log.Record :=
  if s.exhausted then
    [⟨.info, "line source reached end of input", [("topic", .text s.topic)]⟩]
  else []

instance : MessageSource LineSource := ⟨poll⟩

end LineSource

end CourierDispatch
