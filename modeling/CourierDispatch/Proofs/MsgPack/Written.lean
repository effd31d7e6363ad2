import CourierDispatch.Proofs.MsgPack.Header

/-!
# The MsgPack bytes of a value

A value can be written in more than one way: a header may be longer than it need be, and a number that is
not negative may be written in signed form. `Written form v bs` says by recursion on the value that the
bytes are one of the ways to write it, with every number in one of the given forms.
-/

namespace CourierDispatch.MsgPack

def Joined (P Q : List UInt8 → Prop) (bs : List UInt8) : Prop :=
  ∃ as cs, P as ∧ Q cs ∧ bs = as ++ cs

/-- The text behind a header that announces its length. -/
def WrittenText (s : String) : List UInt8 → Prop :=
  Joined (Announces · (.body .text (Utf8.bytes s).length)) (· = Utf8.bytes s)

mutual
/-- The bytes are the value. -/
def Written (form : Number → Token → Prop) : Value → List UInt8 → Prop
  | .null => (Announces · (.scalar .null))
  | .bool b => (Announces · (.scalar (.bool b)))
  | .number n => fun bs => ∃ t, form n t ∧ Announces bs (.scalar t)
  | .string s => WrittenText s
  | .array items => Joined (Announces · (.array items.length)) (WrittenItems form items)
  | .object members => Joined (Announces · (.map members.length)) (WrittenMembers form members)

def WrittenItems (form : Number → Token → Prop) : List Value → List UInt8 → Prop
  | [] => (· = [])
  | v :: rest => Joined (Written form v) (WrittenItems form rest)

def WrittenMembers (form : Number → Token → Prop) : List (String × Value) → List UInt8 → Prop
  | [] => (· = [])
  | (k, v) :: rest =>
    Joined (WrittenText k) (Joined (Written form v) (WrittenMembers form rest))
end

end CourierDispatch.MsgPack
