import CourierDispatch.Catalogue
import CourierDispatch.Token
import CourierDispatch.Value.Datum

/-!
# Details of commands and results

The payload of a command or result is a record that names an order and, where one is booked or
released, a courier. `DetailsType.read` reads it from a structured value: an object with these members,
among others, or an array of exactly these fields.
-/

namespace CourierDispatch

structure OrderId where
  text : String
deriving DecidableEq, Repr

structure CourierId where
  text : String
deriving DecidableEq, Repr

inductive DetailsType
  | assignCourier
  | unassignCourier
  | courierAssigned
  | courierAssignmentFailed
  | courierUnassigned
deriving DecidableEq, Repr

/-- A payload with its type. -/
inductive Details
  | assignCourier (order : OrderId)
  | unassignCourier (order : OrderId)
  | courierAssigned (order : OrderId) (courier : CourierId)
  | courierAssignmentFailed (order : OrderId)
  | courierUnassigned (order : OrderId) (courier : CourierId)
deriving DecidableEq, Repr

namespace Details

def type : Details → DetailsType
  | assignCourier _ => .assignCourier
  | unassignCourier _ => .unassignCourier
  | courierAssigned _ _ => .courierAssigned
  | courierAssignmentFailed _ => .courierAssignmentFailed
  | courierUnassigned _ _ => .courierUnassigned

def orderField : String := "orderID"

def courierField : String := "courierID"

/-- The fields of a payload in the order of their declaration. -/
def fields : Details → List (String × String)
  | assignCourier o | unassignCourier o | courierAssignmentFailed o => [(orderField, o.text)]
  | courierAssigned o k | courierUnassigned o k => [(orderField, o.text), (courierField, k.text)]

def toDatum (d : Details) : Datum := .map (d.fields.map fun (k, s) => (.text k, .text s))

def text (d : Details) : List Char :=
  '\x7b' :: Json.commaSeparated
    (d.fields.map fun (k, s) => Json.quote k.toList ++ ':' :: Json.quote s.toList) ++ ['\x7d']

end Details

namespace DetailsType

def all : List DetailsType :=
  [assignCourier, unassignCourier, courierAssigned, courierAssignmentFailed, courierUnassigned]

def name : DetailsType → String
  | assignCourier => "AssignCourier"
  | unassignCourier => "UnassignCourier"
  | courierAssigned => "CourierAssigned"
  | courierAssignmentFailed => "CourierAssignmentFailed"
  | courierUnassigned => "CourierUnassigned"

def ofName? (s : String) : Option DetailsType := all.find? (·.name = s)

def fields : DetailsType → List String
  | assignCourier | unassignCourier | courierAssignmentFailed => [Details.orderField]
  | courierAssigned | courierUnassigned => [Details.orderField, Details.courierField]

/-- The payload of a type with an order, and with a courier if the type has one. -/
def make (t : DetailsType) (order : OrderId) (courier : CourierId) : Details :=
  match t with
  | assignCourier => .assignCourier order
  | unassignCourier => .unassignCourier order
  | courierAssigned => .courierAssigned order courier
  | courierAssignmentFailed => .courierAssignmentFailed order
  | courierUnassigned => .courierUnassigned order courier

def firstToken : Value → Token
  | .null => .null
  | .bool b => .bool b
  | .number (.whole n) => .integer n
  | .number (.double x) => .float x
  | .string s => .text s
  | .array _ => .arrayStart
  | .object _ => .objectStart

def textOf : Value → Except Mismatch String
  | .string s => .ok s
  | v => .error ((firstToken v).refuse .text)

/-- Reads the fields from the items of an array, in order. -/
def readItems (t : DetailsType) : List String → List Value → Except Mismatch (List String)
  | [], _ => .ok []
  | fields@(_ :: _), [] =>
    .error (.wrongLength (t.fields.length - fields.length) (.recordOf t.name t.fields.length))
  | _ :: fields, v :: rest =>
    match textOf v with
    | .error m => .error m
    | .ok s => (readItems t fields rest).map (s :: ·)

/-- The members that are fields, which have to hold text. -/
def readMembers (t : DetailsType) :
    List (String × Value) → Except Mismatch (List (String × String))
  | [] => .ok []
  | (k, v) :: rest =>
    if k ∈ t.fields then
      match textOf v with
      | .error m => .error m
      | .ok s => (readMembers t rest).map ((k, s) :: ·)
    else readMembers t rest

def collect (members : List (String × String)) : List String → Except Mismatch (List String)
  | [] => .ok []
  | f :: rest =>
    match members.lookup f with
    | none => .error (.missing f)
    | some s => (collect members rest).map (s :: ·)

def readFields (t : DetailsType) : Value → Except Mismatch (List String)
  | .object members => (readMembers t members).bind fun found => collect found t.fields
  | .array items =>
    (readItems t t.fields items).bind fun texts =>
      if items.length = t.fields.length then .ok texts
      else .error (.wrongLength items.length .fewerItems)
  | v => .error ((firstToken v).refuse (.record t.name))

def read (t : DetailsType) (v : Value) : Except Mismatch Details :=
  (t.readFields v).map fun texts =>
    t.make ⟨(texts[0]?).getD ""⟩ ⟨(texts[1]?).getD ""⟩

end DetailsType

end CourierDispatch
