import CourierDispatch.Numeric.Shortest
import CourierDispatch.Json.Printer
import CourierDispatch.Value

/-!
# Data to be written

Data is richer than structured values: the keys of a map may be of any type, and doubles need not be
finite. `Datum.toValue?` is the structured value of some data. Keys that are scalars turn into text,
and other keys have no place in a value.
-/

namespace CourierDispatch

/-- Data before it becomes a structured value. -/
inductive Datum
  | null
  | bool (b : Bool)
  | whole (n : Int)
  | double (x : Double)
  | text (s : String)
  | array (items : List Datum)
  | map (entries : List (Datum × Datum))
deriving Repr

namespace Datum

def key? : Datum → Option String
  | bool b => some (if b then "true" else "false")
  | whole n => some (String.ofList (Json.wholeText n))
  | double x => if x.isFinite then some (x.text Json.layout) else none
  | text s => some s
  | _ => none

mutual
/-- The structured value of the data, unless a key cannot be the name of a member. Doubles that are
not finite become null, and of two entries with the same name the later one counts. -/
def toValue? : Datum → Option Value
  | null => some .null
  | bool b => some (.bool b)
  | whole n => some (.number (.whole n))
  | double x => some (if x.isFinite then .number (.double x) else .null)
  | text s => some (.string s)
  | array items => (itemValues? items).map .array
  | map entries => (memberValues? [] entries).map .object

def itemValues? : List Datum → Option (List Value)
  | [] => some []
  | d :: rest => (toValue? d).bind fun v => (itemValues? rest).map (v :: ·)

def memberValues? (members : List (String × Value)) :
    List (Datum × Datum) → Option (List (String × Value))
  | [] => some members
  | (k, d) :: rest =>
    (key? k).bind fun name =>
      (toValue? d).bind fun v => memberValues? (Keyed.insert name v members) rest
end

mutual
def ofValue : Value → Datum
  | .null => null
  | .bool b => bool b
  | .number (.whole n) => whole n
  | .number (.double x) => double x
  | .string s => text s
  | .array items => array (ofItems items)
  | .object members => map (ofMembers members)

def ofItems : List Value → List Datum
  | [] => []
  | v :: rest => ofValue v :: ofItems rest

def ofMembers : List (String × Value) → List (Datum × Datum)
  | [] => []
  | (k, v) :: rest => (text k, ofValue v) :: ofMembers rest
end

end Datum

end CourierDispatch
