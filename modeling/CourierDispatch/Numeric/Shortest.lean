import CourierDispatch.Numeric.Double

/-!
# Shortest decimals

`Double.shortest` is the decimal with the fewest digits that reads back as the given double, and of
those the nearest one to it. The numbers that read back as a double form an interval around it. The
decimal grids `10 ^ 308, 10 ^ 307, …, 10 ^ -324` refine each other, so the first of them with a
point in the interval has the fewest digits.

Everything is counted in quarters of the least positive double, scaled by `10 ^ 324`: then the
double, the ends of its interval and the points of all grids are natural numbers.
-/

namespace CourierDispatch

/-- The number `digits * 10 ^ exponent`. -/
structure Decimal where
  digits : Nat
  exponent : Int
deriving DecidableEq, Repr

namespace Double

/-- The numbers that read back as a double: from `low` to `high`, the ends included if `closed`. -/
structure Interval where
  low : Nat
  high : Nat
  closed : Bool

def Interval.holds (i : Interval) (n : Nat) : Bool :=
  if i.closed then i.low ≤ n && n ≤ i.high else i.low < n && n < i.high

/-- `10 ^ 324` quarters for each unit of a double. -/
def gridScale : Nat := Nat.pow 10 324

/-- The numbers that round to a positive finite double. Below a power of two the doubles lie twice as
dense as above it, so the interval reaches only half as far down there. -/
def interval (x : Double) : Interval :=
  let step := 1 <<< (x.exponent - 1)
  let below := if x.fraction = 0 ∧ 1 < x.exponent then step else 2 * step
  ⟨(4 * x.units - below) * gridScale, (4 * x.units + 2 * step) * gridScale, x.fraction % 2 = 0⟩

/-- The distance of the points of the grid `10 ^ (j - 324)`. -/
def gridStep (j : Nat) : Nat := 4 * unitsPerOne * Nat.pow 10 j

/-- The point of grid `j` that lies in the interval and is nearest to `v`; of two equally near the
even one. -/
def gridPoint? (i : Interval) (v j : Nat) : Option Nat :=
  let step := gridStep j
  let d := v / step
  let low := i.holds (d * step)
  let high := i.holds ((d + 1) * step)
  if low && high then some (divNearest v step)
  else if low then some d
  else if high then some (d + 1)
  else none

/-- The first grid from `j` downwards that has a point in the interval. -/
def firstGrid (i : Interval) (v : Nat) : Nat → Decimal
  | 0 => ⟨(gridPoint? i v 0).getD (divNearest v (gridStep 0)), -324⟩
  | j + 1 =>
    match gridPoint? i v (j + 1) with
    | some d => ⟨d, (j + 1 : Int) - 324⟩
    | none => firstGrid i v j

/-- The shortest decimal that reads back as the magnitude of a finite double. -/
def shortest (x : Double) : Decimal :=
  if x.isZero then ⟨0, 0⟩ else firstGrid x.interval (4 * x.units * gridScale) 632

end Double

/-- How a decimal is laid out: the exponents of its first digit with which it is written without an
exponent. -/
structure DecimalLayout where
  positional : Int → Bool

namespace Decimal

/-- The decimal digits of a natural number, the first one first. -/
def digitsOf (n : Nat) : List Char := Nat.toDigits 10 n

/-- Writes a decimal in positions, with at least one digit on each side of the point. -/
def positionalText (ds : List Char) (exponent : Int) : List Char :=
  if 0 ≤ exponent then ds ++ List.replicate exponent.toNat '0' ++ ['.', '0']
  else
    let places := (-exponent).toNat
    if places < ds.length then
      ds.take (ds.length - places) ++ '.' :: ds.drop (ds.length - places)
    else ['0', '.'] ++ List.replicate (places - ds.length) '0' ++ ds

/-- Writes a decimal as one digit, a fraction if there is one, and the exponent with its sign. -/
def scientificText (ds : List Char) (lead : Int) : List Char :=
  let mantissa :=
    match ds with
    | d :: r :: rs => d :: '.' :: r :: rs
    | ds => ds
  mantissa ++ ['e', if lead < 0 then '-' else '+'] ++ digitsOf lead.natAbs

def text (layout : DecimalLayout) (d : Decimal) : List Char :=
  let ds := digitsOf d.digits
  let lead := d.exponent + ds.length - 1
  if layout.positional lead then positionalText ds d.exponent else scientificText ds lead

end Decimal

def Double.text (layout : DecimalLayout) (x : Double) : String :=
  let sign := if x.isNegative then ['-'] else []
  if x.isNaN then "NaN"
  else if x.isInfinite then String.ofList (sign ++ ['i', 'n', 'f'])
  else String.ofList (sign ++ x.shortest.text layout)

end CourierDispatch
