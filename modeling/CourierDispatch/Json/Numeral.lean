import CourierDispatch.Text.Hex
import CourierDispatch.Token

/-!
# Numerals of JSON

A numeral is read character by character through the parts of its grammar. Its value is computed
from a significand of 64 bits and a power of ten. Digits for which the significand has no room are
dropped: those before the point raise the power, those behind it change nothing. The significand is
then multiplied or divided by the double nearest to the power, and a product that is too large is no
number.
-/

namespace CourierDispatch.Json

/-- A numeral by its digits. `fraction` and `exponent` are absent where they are not written. -/
structure Numeral where
  negative : Bool
  whole : List Nat
  fraction : Option (List Nat)
  exponent : Option Int
deriving DecidableEq, Repr

namespace Numeral

/-- Appends digits to a significand as long as it has room, and gives back those left over. -/
def absorb : Nat → List Nat → Nat × List Nat
  | m, [] => (m, [])
  | m, d :: ds => if m * 10 + d < 1 <<< 64 then absorb (m * 10 + d) ds else (m, d :: ds)

def powerOfTen (k : Nat) : Double := Double.ofNat (Nat.pow 10 k)

/-- Divides by `10 ^ k`, in steps no larger than `10 ^ 308`. -/
def shrink (x : Double) (k : Nat) : Double :=
  if k ≤ 308 then x.div (powerOfTen k)
  else if x.isZero then x
  else shrink (x.div (powerOfTen 308)) (k - 308)
termination_by k

/-- `m * 10 ^ e` as a double, unless it is too large. -/
def scale? (m : Nat) : Int → Option Double
  | .ofNat e =>
    if e ≤ 308 then
      let x := (Double.ofNat m).mul (powerOfTen e)
      if x.isFinite then some x else none
    else if m = 0 then some (Double.ofNat 0)
    else none
  | .negSucc k => some (shrink (Double.ofNat m) (k + 1))

def signed (negative : Bool) (x : Double) : Double := if negative then x.neg else x

def double? (n : Numeral) : Option Double :=
  let (m, extra) := absorb 0 n.whole
  let digits := n.fraction.getD []
  let (m, rest) := absorb m digits
  let taken := digits.length - rest.length
  (scale? m (n.exponent.getD 0 + extra.length - taken)).map (signed n.negative)

/-- The token of a numeral, unless it is too large. A numeral without point and exponent is a whole
number if it fits into 64 bits; `-0` is a double, as only doubles know a negative zero. -/
def token? (n : Numeral) : Option Token :=
  match n.fraction, n.exponent, absorb 0 n.whole with
  | none, none, (m, []) =>
    if !n.negative then some (.natural m)
    else if 0 < m ∧ m ≤ 1 <<< 63 then some (.integer (-m))
    else some (.float (Double.ofNat m).neg)
  | _, _, _ => n.double?.map .float

/-- The part of a numeral that its last character belongs to. -/
inductive Part
  | minus
  | zero
  | whole
  | point
  | fraction
  | mark
  | sign
  | exponent
deriving DecidableEq, Repr

/-- A numeral being read, the latest digits first. -/
structure Draft where
  part : Part
  negative : Bool
  whole : List Nat := []
  fraction : Option (List Nat) := none
  lowers : Bool := false
  exponent : Option Nat := none
deriving DecidableEq, Repr

namespace Draft

def complete (d : Draft) : Bool :=
  match d.part with
  | .zero | .whole | .fraction | .exponent => true
  | _ => false

def numeral (d : Draft) : Numeral :=
  ⟨d.negative, d.whole.reverse, d.fraction.map List.reverse,
    d.exponent.map fun e => if d.lowers then -(e : Int) else e⟩

/-- What a character means for a numeral: it goes on, it ended before the character, or it is none. -/
inductive Reaction
  | more (d : Draft)
  | over
  | wrong

def digit? (c : Char) : Option Nat := if c.isDigit then some (c.toNat - '0'.toNat) else none

def ofChar? (c : Char) : Option Draft :=
  if c = '-' then some { part := .minus, negative := true }
  else (digit? c).map fun n =>
    { part := if n = 0 then .zero else .whole, negative := false, whole := [n] }

def close (d : Draft) (c : Char) : Reaction :=
  match d.part with
  | .zero | .whole =>
    if c = '.' then .more { d with part := .point, fraction := some [] }
    else if c = 'e' ∨ c = 'E' then .more { d with part := .mark, exponent := some 0 }
    else .over
  | .fraction =>
    if c = 'e' ∨ c = 'E' then .more { d with part := .mark, exponent := some 0 } else .over
  | .mark =>
    if c = '+' then .more { d with part := .sign }
    else if c = '-' then .more { d with part := .sign, lowers := true }
    else .wrong
  | .exponent => .over
  | _ => .wrong

def step (d : Draft) (c : Char) : Reaction :=
  match digit? c with
  | none => d.close c
  | some n =>
    match d.part with
    | .zero => .wrong
    | .minus =>
      .more { d with part := if n = 0 then .zero else .whole, whole := [n] }
    | .whole => .more { d with whole := n :: d.whole }
    | .point | .fraction =>
      .more { d with part := .fraction, fraction := some (n :: d.fraction.getD []) }
    | .mark | .sign | .exponent =>
      .more { d with part := .exponent, exponent := some (d.exponent.getD 0 * 10 + n) }

end Draft

end Numeral

end CourierDispatch.Json
