import CourierDispatch.Numeric.Shortest
import CourierDispatch.Text.Debug
import CourierDispatch.Token

/-!
# Messages about mismatches

The two wire formats word the same mismatch alike. They differ in their name of null and in the layout
of doubles.
-/

namespace CourierDispatch

structure Wording where
  null : String
  layout : DecimalLayout

def Token.describe (w : Wording) : Token → String
  | null => w.null
  | bool b => s!"boolean `{b}`"
  | natural n => s!"integer `{n}`"
  | integer n => s!"integer `{n}`"
  | float x => s!"floating point `{x.text w.layout}`"
  | text s => s!"string {Text.shown s}"
  | brokenText _ => "string"
  | bytes _ => "byte array"
  | extension => "newtype struct"
  | skimmed => "value"
  | arrayStart | arrayEnd => "sequence"
  | objectStart | objectEnd => "map"

def Expectation.describe : Expectation → String
  | text => "a string"
  | memberName => "a string key"
  | value => "any valid JSON value"
  | fieldName => "field identifier"
  | record name => s!"struct {name}"
  | recordOf name 1 => s!"struct {name} with 1 element"
  | recordOf name n => s!"struct {name} with {n} elements"
  | fewerItems => "fewer elements in array"

def Mismatch.message (w : Wording) : Mismatch → String
  | wrongType t e => s!"invalid type: {t.describe w}, expected {e.describe}"
  | wrongValue e => s!"invalid value: byte array, expected {e.describe}"
  | wrongLength n e => s!"invalid length {n}, expected {e.describe}"
  | missing field => s!"missing field `{field}`"
  | duplicate field => s!"duplicate field `{field}`"
  | notUtf8 => "text is not UTF-8"

end CourierDispatch
