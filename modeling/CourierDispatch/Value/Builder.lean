import CourierDispatch.Text.Utf8
import CourierDispatch.Token

/-!
# Building values from tokens

A `Builder` is a consumer that builds one value. While the value is open, a `Place` says where the next
part of it goes. Doubles that are not finite become null, and of two members with the same name the
later one counts.
-/

namespace CourierDispatch.Value

/-- Where a value goes: to the top, behind the items of an array (the latest one first), or into an
object, under a name. -/
inductive Place
  | top
  | item (before : List Value) (outer : Place)
  | member (members : List (String × Value)) (name : String) (outer : Place)

/-- What comes next: a value, a member's name, or nothing any more. -/
inductive Builder
  | value (place : Place)
  | name (members : List (String × Value)) (place : Place)
  | done (v : Value)

namespace Builder

def put (v : Value) : Place → Builder
  | .top => done v
  | .item before outer => value (.item (v :: before) outer)
  | .member members key outer => name (Keyed.insert key v members) outer

def scalar? : Token → Option Value
  | .null => some .null
  | .bool b => some (.bool b)
  | .natural n => some (.number (.whole n))
  | .integer n => some (.number (.whole n))
  | .float x => some (if x.isFinite then .number (.double x) else .null)
  | .text s => some (.string s)
  | _ => none

def acceptValue (place : Place) (t : Token) : Except Mismatch Builder :=
  match t, place with
  | .arrayStart, p => .ok (value (.item [] p))
  | .objectStart, p => .ok (name [] p)
  | .arrayEnd, .item before outer => .ok (put (.array before.reverse) outer)
  | t, p =>
    match scalar? t with
    | some v => .ok (put v p)
    | none => .error (t.refuse .value)

/-- Takes a token where a name may come. The first name of an object has to be text; in the place of
a later one, bytes that spell text will do. -/
def acceptName (members : List (String × Value)) (place : Place) (t : Token) :
    Except Mismatch Builder :=
  match t, members with
  | .objectEnd, _ => .ok (put (.object members) place)
  | .text s, _ => .ok (value (.member members s place))
  | .bytes content, _ :: _ =>
    match Utf8.string? content with
    | some s => .ok (value (.member members s place))
    | none => .error (.wrongValue .text)
  | t, [] => .error (t.refuse .memberName)
  | t, _ :: _ => .error (t.refuse .text)

def accept : Builder → Token → Except Mismatch Builder
  | value p, t => acceptValue p t
  | name members p, t => acceptName members p t
  | done _, t => .error (t.refuse .value)

instance : Consumer Builder := ⟨accept, fun _ => false, fun _ => false⟩

def start : Builder := value .top

def result? : Builder → Option Value
  | done v => some v
  | _ => none

end Builder

end CourierDispatch.Value
