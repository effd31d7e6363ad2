import CourierDispatch.Value.Builder

/-!
# Envelopes

Commands and results travel in the same envelope: an id, a name and a payload. `Envelope.Draft` is the
consumer that builds one from tokens. An envelope is an object, whose unknown members are passed over
and whose payload may be missing, or an array of the three fields in this order, without the payload if
need be.
-/

namespace CourierDispatch

structure Envelope where
  id : String
  name : String
  payload : Value
deriving BEq, Repr

namespace Envelope

inductive Field
  | id
  | name
  | payload
deriving DecidableEq, Repr

namespace Field

def all : List Field := [id, name, payload]

def wireName : Field → String
  | id => "id"
  | name => "name"
  | payload => "payload"

/-- The place of a field in the array form. -/
def index : Field → Nat
  | id => 0
  | name => 1
  | payload => 2

def ofName? (s : String) : Option Field := all.find? (·.wireName = s)

/-- The field that a token in the place of a name stands for, and `none` for an unknown one. Fields go
by their names, as text or bytes, or by their numbers. -/
def ofToken (t : Token) : Except Mismatch (Option Field) :=
  match t with
  | .text s => .ok (ofName? s)
  | .bytes content | .brokenText content => .ok ((Utf8.string? content).bind ofName?)
  | .natural n => .ok (all.find? (·.index = n))
  | .skimmed => .ok none
  | t => .error (t.refuse .fieldName)

end Field

/-- What comes next in an envelope. -/
inductive Stage
  | opening
  | memberName
  /-- The value of a field. -/
  | field (f : Field)
  /-- The rest of the payload. -/
  | payload (b : Value.Builder)
  /-- The rest of an unknown member, with so many containers open. -/
  | unknown (depth : Nat)
  /-- The end of an array that holds all fields. -/
  | full
  | complete

/-- An envelope being read. -/
structure Draft where
  stage : Stage := .opening
  positional : Bool := false
  id : Option String := none
  name : Option String := none
  payload : Option Value := none

namespace Draft

def expected : Expectation := .record "WireEnvelope"

def has (d : Draft) : Field → Bool
  | .id => d.id.isSome
  | .name => d.name.isSome
  | .payload => d.payload.isSome

/-- Takes the token that opens the envelope. Bytes are taken for an array of numbers. -/
def acceptOpening (d : Draft) (t : Token) : Except Mismatch Draft :=
  match t with
  | .arrayStart => .ok { d with stage := .field .id, positional := true }
  | .objectStart => .ok { d with stage := .memberName }
  | .bytes [] => .error (.wrongLength 0 (.recordOf "WireEnvelope" 3))
  | .bytes (b :: _) => .error ((Token.natural b.toNat).refuse .text)
  | t => .error (t.refuse expected)

/-- Takes the end of the object, which has to have an id and a name. -/
def close (d : Draft) : Except Mismatch Draft :=
  match d.id, d.name with
  | none, _ => .error (.missing Field.id.wireName)
  | _, none => .error (.missing Field.name.wireName)
  | some _, some _ => .ok { d with stage := .complete }

def acceptName (d : Draft) (t : Token) : Except Mismatch Draft :=
  match t with
  | .objectEnd => d.close
  | t =>
    match Field.ofToken t with
    | .error m => .error m
    | .ok none => .ok { d with stage := .unknown 0 }
    | .ok (some f) =>
      if d.has f then .error (.duplicate f.wireName) else .ok { d with stage := .field f }

def textOf (t : Token) : Except Mismatch String :=
  match t with
  | .text s => .ok s
  | .bytes content =>
    match Utf8.string? content with
    | some s => .ok s
    | none => .error (.wrongValue .text)
  | t => .error (t.refuse .text)

def following (d : Draft) (f : Field) : Stage :=
  if d.positional then
    match f with
    | .id => .field .name
    | .name => .field .payload
    | .payload => .full
  else .memberName

def resume (d : Draft) (b : Value.Builder) : Draft :=
  match b.result? with
  | some v => { d with stage := d.following .payload, payload := some v }
  | none => { d with stage := .payload b }

def acceptPayload (d : Draft) (b : Value.Builder) (t : Token) : Except Mismatch Draft :=
  match b.accept t with
  | .ok b => .ok (d.resume b)
  | .error m => .error m

/-- Takes the first token of a field's value. In the array form the array may end instead. -/
def acceptField (d : Draft) (f : Field) (t : Token) : Except Mismatch Draft :=
  match f, t, d.positional with
  | .payload, .arrayEnd, true => .ok { d with stage := .complete }
  | f, .arrayEnd, true => .error (.wrongLength f.index (.recordOf "WireEnvelope" 3))
  | .payload, t, _ => d.acceptPayload .start t
  | .id, t, _ => (textOf t).map fun s => { d with stage := d.following .id, id := some s }
  | .name, t, _ => (textOf t).map fun s => { d with stage := d.following .name, name := some s }

def skip (d : Draft) (depth : Nat) (t : Token) : Draft :=
  let depth :=
    match t with
    | .arrayStart | .objectStart => depth + 1
    | .arrayEnd | .objectEnd => depth - 1
    | _ => depth
  { d with stage := if depth = 0 then .memberName else .unknown depth }

def accept (d : Draft) (t : Token) : Except Mismatch Draft :=
  match d.stage, t with
  | .opening, t => d.acceptOpening t
  | .memberName, t => d.acceptName t
  | .field f, t => d.acceptField f t
  | .payload b, t => d.acceptPayload b t
  | .unknown depth, t => .ok (d.skip depth t)
  | .full, .arrayEnd => .ok { d with stage := .complete }
  | _, t => .error (t.refuse expected)

/-- Whether the coming value belongs to an unknown member. -/
def skims (d : Draft) : Bool :=
  match d.stage with
  | .unknown _ => true
  | _ => false

def sated (d : Draft) : Bool :=
  match d.stage with
  | .full => true
  | _ => false

instance : Consumer Draft := ⟨accept, skims, sated⟩

/-- The envelope, once it is complete. A payload that is missing is null. -/
def result? (d : Draft) : Option Envelope :=
  match d.stage, d.id, d.name with
  | .complete, some id, some name => some ⟨id, name, d.payload.getD .null⟩
  | _, _, _ => none

end Draft

end Envelope

end CourierDispatch
