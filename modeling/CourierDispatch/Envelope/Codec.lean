import CourierDispatch.Details
import CourierDispatch.Envelope
import CourierDispatch.Text.Blank
import CourierDispatch.WireFormat

/-!
# Envelopes on the wire

`Envelope.decode` reads an envelope from bytes and refuses blank ids and names, the id first.
`Envelope.encode` writes one, with its fields in their order.
-/

namespace CourierDispatch

inductive CodecError
  | wire (f : WireFault)
  | missingId
  | missingName
  | invalidResultId (id : String)
  | unknownResult (name : String)
  | payload (type : DetailsType) (m : Mismatch)
  /-- A key that cannot be the name of a member. -/
  | unnamable
deriving DecidableEq, Repr

def CodecError.message : CodecError → String
  | wire f => f.message
  | missingId => "envelope has an empty id"
  | missingName => "envelope has an empty name"
  | invalidResultId id => s!"result id is not a uuid: {id}"
  | unknownResult name => s!"unrecognized result name: {name}"
  | payload t m =>
    s!"payload does not match dispatch_core::messages::courier::{t.name}: {m.message Json.wording}"
  | unnamable => "invalid json: key must be a string"

namespace Envelope

def parse (format : WireFormat) (bs : List UInt8) : Except WireFault Envelope :=
  match format.feed ({} : Draft) bs with
  | .error f => .error f
  | .ok d =>
    match d.result? with
    | some e => .ok e
    | none => .error format.cutShort

def check (e : Envelope) : Except CodecError Envelope :=
  if Text.IsBlank e.id then .error .missingId
  else if Text.IsBlank e.name then .error .missingName
  else .ok e

def decode (format : WireFormat) (bs : List UInt8) : Except CodecError Envelope :=
  match parse format bs with
  | .error f => .error (.wire f)
  | .ok e => e.check

def jsonText (e : Envelope) : List Char :=
  '\x7b' :: Json.commaSeparated
    [Json.quote "id".toList ++ ':' :: Json.quote e.id.toList,
      Json.quote "name".toList ++ ':' :: Json.quote e.name.toList,
      Json.quote "payload".toList ++ ':' :: Json.text e.payload] ++ ['\x7d']

def msgPackBytes (e : Envelope) : List UInt8 :=
  MsgPack.mapHeader 3 ++ MsgPack.textBytes "id" ++ MsgPack.textBytes e.id
    ++ MsgPack.textBytes "name" ++ MsgPack.textBytes e.name
    ++ MsgPack.textBytes "payload" ++ MsgPack.print e.payload

def encode (format : WireFormat) (e : Envelope) : List UInt8 :=
  match format with
  | .json => Utf8.encode e.jsonText
  | .msgPack => e.msgPackBytes

end Envelope

end CourierDispatch
