/-!
# Whole numbers in text

A number is written as decimal digits of ASCII, at least one of them, and may have a sign in front.
-/

namespace CourierDispatch.Whole

def ofDigits? (cs : List Char) : Option Nat :=
  if cs ≠ [] ∧ cs.all Char.isDigit then
    some (cs.foldl (fun n c => 10 * n + (c.toNat - '0'.toNat)) 0)
  else none

/-- A number without a sign or behind a plus. -/
def natural? : List Char → Option Nat
  | '+' :: cs => ofDigits? cs
  | cs => ofDigits? cs

def integer? : List Char → Option Int
  | '-' :: cs => (ofDigits? cs).map fun n => -(n : Int)
  | cs => (natural? cs).map Int.ofNat

end CourierDispatch.Whole
