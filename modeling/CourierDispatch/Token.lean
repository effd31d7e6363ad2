import CourierDispatch.Value

/-!
# Tokens

A wire format is read from left to right into tokens, and a consumer builds what is wanted from them
one token at a time. The first token that does not suit the consumer ends the reading, whatever
comes after it. Both wire formats speak this one vocabulary, so what a consumer accepts does not
depend on the format.
-/

namespace CourierDispatch

/-- A step in the description of a value. Inside an object, names and values of the members take
turns. -/
inductive Token
  | null
  | bool (b : Bool)
  /-- A number in unsigned form. -/
  | natural (n : Nat)
  /-- A number in signed form. -/
  | integer (n : Int)
  | float (x : Double)
  | text (s : String)
  /-- Text that is not UTF-8. -/
  | brokenText (content : List UInt8)
  | bytes (content : List UInt8)
  /-- A value of a type that the format leaves to its users. -/
  | extension
  /-- A scalar that was passed over unread. -/
  | skimmed
  | arrayStart
  | arrayEnd
  | objectStart
  | objectEnd
deriving DecidableEq, Repr

/-- What was expected in the place of something else. -/
inductive Expectation
  | text
  | memberName
  | value
  | fieldName
  /-- A record: an object with named fields or an array of them. -/
  | record (name : String)
  | recordOf (name : String) (fields : Nat)
  | fewerItems
deriving DecidableEq, Repr

/-- Why a description, well-formed so far, is not one of what is wanted. -/
inductive Mismatch
  /-- A token of the wrong type. -/
  | wrongType (found : Token) (expected : Expectation)
  /-- Bytes that do not spell the text expected. -/
  | wrongValue (expected : Expectation)
  /-- An array with too few or too many items. -/
  | wrongLength (length : Nat) (expected : Expectation)
  | missing (field : String)
  | duplicate (field : String)
  /-- Text that is not UTF-8 where its characters count. -/
  | notUtf8
deriving DecidableEq, Repr

/-- Refuses a token. Text that is not UTF-8 is refused as such. -/
def Token.refuse (expected : Expectation) : Token → Mismatch
  | brokenText _ => .notUtf8
  | t => .wrongType t expected

class Consumer (σ : Type) where
  /-- Takes the next token. -/
  accept : σ → Token → Except Mismatch σ
  /-- Whether the coming value will be passed over. -/
  skims : σ → Bool
  /-- Whether the array being read takes no further item. -/
  sated : σ → Bool

end CourierDispatch
