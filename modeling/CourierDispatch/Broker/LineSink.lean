import CourierDispatch.Broker

/-!
# Messages as lines

A line sink writes the value of every message and a line feed behind it. Keys and headers find no place
in a line. A stream that fails may have taken a part of the bytes before.
-/

namespace CourierDispatch

/-- A stream that takes bytes. The answer to each step may be the text of a failure. -/
class ByteWriter (W : Type) where
  /-- Takes all of the bytes, or some of the first ones and fails. -/
  write : W → List UInt8 → W × Except String Unit
  flush : W → W × Except String Unit
  shutdown : W → W × Except String Unit

/-- A stream of bytes that takes messages of one topic. -/
structure LineSink (W : Type) where
  topic : String
  writer : W

namespace LineSink

variable {W : Type} [ByteWriter W]

/-- Writes values line by line, up to the first failure, and flushes the stream behind the last. -/
def writeLines (w : W) : List (List UInt8) → W × Except String Unit
  | [] => ByteWriter.flush w
  | v :: rest =>
    match ByteWriter.write w v with
    | (w, .error e) => (w, .error e)
    | (w, .ok ()) =>
      match ByteWriter.write w [10] with
      | (w, .error e) => (w, .error e)
      | (w, .ok ()) => writeLines w rest

/-- The sink with the writer in the state that an operation leaves. -/
def settle (s : LineSink W) (r : W × Except String Unit) : LineSink W × Except BrokerError Unit :=
  ({ s with writer := r.1 }, r.2.mapError .io)

/-- Writes a batch, if it is addressed to the topic. -/
def write (s : LineSink W) (batch : List Outbound) : LineSink W × Except BrokerError Unit :=
  match stray? s.topic batch with
  | some m => (s, .error (.unknownTopic m.topic))
  | none => s.settle (writeLines s.writer (batch.map (·.value)))

def close (s : LineSink W) : LineSink W × Except BrokerError Unit :=
  s.settle (ByteWriter.shutdown s.writer)

instance : MessageSink (LineSink W) where
  write s batch := { begun := s, finish := fun s => s.write batch }
  close := close

end LineSink

end CourierDispatch
