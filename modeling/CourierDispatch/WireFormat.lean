import CourierDispatch.Json.Printer
import CourierDispatch.Json.Scanner
import CourierDispatch.MsgPack.Printer
import CourierDispatch.MsgPack.Scanner
import CourierDispatch.Token.Message

/-!
# Wire formats

Envelopes travel as JSON or as MsgPack. `WireFormat.feed` reads either of them into a consumer.
-/

namespace CourierDispatch

inductive WireFormat
  | json
  | msgPack
deriving DecidableEq, Repr

namespace WireFormat

def name : WireFormat → String
  | json => "json"
  | msgPack => "msgpack"

/-- The format with a name, in any letter case. -/
def ofName? (s : String) : Option WireFormat :=
  let name := String.ofList (s.toList.map Char.toLower)
  if name = "json" then some json
  else if name = "msgpack" ∨ name = "messagepack" then some msgPack
  else none

def unknownMessage (s : String) : String :=
  s!"unknown wire format `{s}` (expected `json` or `msgpack`)"

end WireFormat

inductive WireFault
  | json (f : Json.Fault)
  | msgPack (f : MsgPack.Fault)
deriving DecidableEq, Repr

namespace Json

def wording : Wording := ⟨"null", layout⟩

def Fault.message : Fault → String
  | cutShort => "the text stops short"
  | illFormed => "the text is ill-formed"
  | mismatch m => m.message wording

end Json

namespace MsgPack

/-- How MsgPack words a mismatch. Doubles are always written in positions. -/
def wording : Wording := ⟨"unit value", ⟨fun _ => true⟩⟩

def Fault.message : Fault → String
  | cutShort => "the bytes stop short"
  | reserved => "reserved marker"
  | tooDeep => "nested too deep"
  | tooLong => "array has items left over"
  | mismatch m => m.message wording

end MsgPack

namespace WireFault

def message : WireFault → String
  | json f => s!"invalid json: {f.message}"
  | msgPack f => s!"invalid msgpack: {f.message}"

end WireFault

namespace WireFormat

def feed {σ : Type} [Consumer σ] (c : σ) (format : WireFormat) (bs : List UInt8) :
    Except WireFault σ :=
  match format with
  | json => (Json.feed c bs).mapError .json
  | msgPack => (MsgPack.feed c bs).mapError .msgPack

/-- What is reported when the bytes are complete but what is wanted is not. -/
def cutShort : WireFormat → WireFault
  | json => .json .cutShort
  | msgPack => .msgPack .cutShort

def print (format : WireFormat) (v : Value) : List UInt8 :=
  match format with
  | json => Json.print v
  | msgPack => MsgPack.print v

end WireFormat

end CourierDispatch
