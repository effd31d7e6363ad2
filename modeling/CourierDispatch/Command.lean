import CourierDispatch.Context
import CourierDispatch.Envelope.Codec
import CourierDispatch.Uuid

/-!
# Commands and results

A command asks for something to be done for an order. What comes of it is published as a result, whose
id is new and whose context is that of the command. The context travels in headers and is no part of
the envelope.
-/

namespace CourierDispatch

/-- A command as it was sent: its name may be unknown and its payload of any shape. -/
structure Command where
  id : String
  name : String
  payload : Value
  context : Context := {}
deriving BEq, Repr

namespace Command

def kind? (c : Command) : Option CommandKind := CommandKind.ofName? c.name

def details (c : Command) (t : DetailsType) : Except CodecError Details :=
  (t.read c.payload).mapError (.payload t)

def envelope (c : Command) : Envelope := ⟨c.id, c.name, c.payload⟩

/-- The command in an envelope, with an empty context. -/
def ofEnvelope (e : Envelope) : Command := { id := e.id, name := e.name, payload := e.payload }

def decode (format : WireFormat) (bs : List UInt8) : Except CodecError Command :=
  (Envelope.decode format bs).map ofEnvelope

def encode (format : WireFormat) (c : Command) : List UInt8 := c.envelope.encode format

end Command

structure Result where
  id : Uuid
  kind : ResultKind
  payload : Value
  context : Context := {}
deriving BEq, Repr

namespace Result

def ofDatum (id : Uuid) (kind : ResultKind) (d : Datum) (context : Context) :
    Except CodecError Result :=
  match d.toValue? with
  | some payload => .ok { id, kind, payload, context }
  | none => .error .unnamable

def details (r : Result) (t : DetailsType) : Except CodecError Details :=
  (t.read r.payload).mapError (.payload t)

def envelope (r : Result) : Envelope := ⟨r.id.toText, r.kind.wireName, r.payload⟩

/-- The result in an envelope, with an empty context. The id has to be a UUID and the name one of the
catalogue; the id is looked at first. -/
def ofEnvelope (e : Envelope) : Except CodecError Result :=
  match Uuid.ofText? e.id, ResultKind.ofName? e.name with
  | none, _ => .error (.invalidResultId e.id)
  | some _, none => .error (.unknownResult e.name)
  | some id, some kind => .ok { id, kind, payload := e.payload }

def decode (format : WireFormat) (bs : List UInt8) : Except CodecError Result :=
  (Envelope.decode format bs).bind ofEnvelope

def encode (format : WireFormat) (r : Result) : List UInt8 := r.envelope.encode format

end Result

end CourierDispatch
