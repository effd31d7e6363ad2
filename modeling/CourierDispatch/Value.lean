import CourierDispatch.Keyed
import CourierDispatch.Numeric.Double

/-!
# Structured values

A payload is a structured value: null, a truth value, a number, a string, an array of values, or an
object with named members. A number is a whole number or a double, and the two stay apart: `1` is not
`1.0`.

`Value.depth` counts how deep containers are nested, which both wire formats limit. `WellFormed` says
what a value read from the wire always is: members ordered by name, whole numbers within 64 bits, and
doubles finite.
-/

namespace CourierDispatch

inductive Number
  | whole (n : Int)
  | double (x : Double)
deriving DecidableEq, Repr

/-- Whole numbers that the wire can carry: those of 64 bits, signed or unsigned. -/
def Number.fits : Number → Prop
  | .whole n => -((1 <<< 63 : Nat) : Int) ≤ n ∧ n < (1 <<< 64 : Nat)
  | .double x => x.isFinite = true

instance : DecidablePred Number.fits
  | .whole _ => inferInstanceAs (Decidable (_ ∧ _))
  | .double _ => inferInstanceAs (Decidable (_ = _))

inductive Value
  | null
  | bool (b : Bool)
  | number (n : Number)
  | string (s : String)
  | array (items : List Value)
  | object (members : List (String × Value))
deriving Repr, BEq

namespace Value

instance : Inhabited Value := ⟨null⟩

mutual
def depth : Value → Nat
  | array items => depthOfItems items + 1
  | object members => depthOfMembers members + 1
  | _ => 0

def depthOfItems : List Value → Nat
  | [] => 0
  | v :: rest => max v.depth (depthOfItems rest)

def depthOfMembers : List (String × Value) → Nat
  | [] => 0
  | (_, v) :: rest => max v.depth (depthOfMembers rest)
end

mutual
/-- Members ordered by name and numbers that fit, all the way down. -/
def WellFormed : Value → Prop
  | number n => n.fits
  | array items => WellFormedItems items
  | object members => Keyed.Sorted members ∧ WellFormedMembers members
  | _ => True

def WellFormedItems : List Value → Prop
  | [] => True
  | v :: rest => v.WellFormed ∧ WellFormedItems rest

def WellFormedMembers : List (String × Value) → Prop
  | [] => True
  | (_, v) :: rest => v.WellFormed ∧ WellFormedMembers rest
end

end Value

end CourierDispatch
