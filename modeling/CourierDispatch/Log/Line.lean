import CourierDispatch.Config
import CourierDispatch.Json.Printer
import CourierDispatch.Log

/-!
# Log lines

A record is written as a line: as a JSON object, or plainly with its fields behind the message.
-/

namespace CourierDispatch.Log

def Field.toValue : Field → Value
  | .text s => .string s
  | .number n => .number (.whole n)

def Field.plain : Field → String
  | .text s => s
  | .number n => toString n

namespace Record

/-- The fields as an object, the message among them. -/
def fieldsValue (r : Record) : Value :=
  .object (Keyed.ofList (("message", .string r.message) :: r.fields.map fun (k, v) => (k, v.toValue)))

def toValue (target : String) (r : Record) : Value :=
  .object [("fields", r.fieldsValue), ("level", .string r.level.name), ("target", .string target)]

def plain (target : String) (r : Record) : String :=
  let fields := r.fields.map fun (k, v) => s!" {k}={v.plain}"
  s!"{r.level.name} {target}: {r.message}" ++ String.join fields

def line (format : LogFormat) (target : String) (r : Record) : String :=
  match format with
  | .json => String.ofList (Json.text (r.toValue target))
  | .pretty => r.plain target

end Record

end CourierDispatch.Log
