/-!
# Binary64 numbers

A `Double` is a 64-bit pattern: a sign, eleven bits of exponent and 52 bits of fraction. The
magnitude of a finite double is a whole number of `units`, the least positive double `2 ^ -1074`, so
every operation is done on natural numbers and rounded once, to the nearest double and to the even
one of two equally near.
-/

namespace CourierDispatch

/-- A binary64 number, by its bit pattern. -/
structure Double where
  bits : UInt64
deriving DecidableEq, Repr

/-- The quotient rounded to the nearest whole number, a half to the even one. -/
def divNearest (n d : Nat) : Nat :=
  let q := n / d
  let r := n % d
  if 2 * r < d then q else if d < 2 * r then q + 1 else q + q % 2

namespace Double

/-- The double with the given sign, exponent field and fraction field. -/
def pack (negative : Bool) (exponent fraction : Nat) : Double :=
  ⟨((if negative then 1 <<< 63 else 0) + exponent <<< 52 + fraction).toUInt64⟩

def isNegative (x : Double) : Bool := 1 <<< 63 ≤ x.bits.toNat

def exponent (x : Double) : Nat := x.bits.toNat >>> 52 % (1 <<< 11)

def fraction (x : Double) : Nat := x.bits.toNat % (1 <<< 52)

def isFinite (x : Double) : Bool := x.exponent != 2047

def isNaN (x : Double) : Bool := x.exponent == 2047 && x.fraction != 0

def isInfinite (x : Double) : Bool := x.exponent == 2047 && x.fraction == 0

def infinity (negative : Bool) : Double := pack negative 2047 0

def nan : Double := pack false 2047 (1 <<< 51)

/-- The magnitude of a finite double in units of `2 ^ -1074`. -/
def units (x : Double) : Nat :=
  if x.exponent = 0 then x.fraction else (1 <<< 52 + x.fraction) <<< (x.exponent - 1)

def unitsPerOne : Nat := 1 <<< 1074

/-- How many low bits of a magnitude of `u` units a double has no room for. -/
def spareBits (u : Nat) : Nat := u.log2 - 52

/-- The double of a magnitude in units, which must leave `spareBits` clear; infinity if it is too
large for a double. -/
def ofUnits (negative : Bool) (u : Nat) : Double :=
  if u < 1 <<< 52 then pack negative 0 u
  else
    let k := spareBits u
    if 2046 ≤ k then infinity negative else pack negative (k + 1) (u >>> k - 1 <<< 52)

def round (negative : Bool) (n d : Nat) : Double :=
  let k := spareBits (n / d)
  ofUnits negative (divNearest n (d <<< k) <<< k)

def ofRatio (negative : Bool) (n d : Nat) : Double := round negative (n * unitsPerOne) d

def ofNat (n : Nat) : Double := ofRatio false n 1

def isZero (x : Double) : Bool := x.exponent == 0 && x.fraction == 0

def neg (x : Double) : Double := ⟨x.bits ^^^ 0x8000000000000000⟩

/-- Product. Zero times infinity is not a number. -/
def mul (x y : Double) : Double :=
  let negative := x.isNegative != y.isNegative
  if x.isNaN || y.isNaN then nan
  else if x.isInfinite || y.isInfinite then
    if x.isZero || y.isZero then nan else infinity negative
  else round negative (x.units * y.units) unitsPerOne

/-- Quotient of finite doubles, the second not zero. -/
def div (x y : Double) : Double :=
  round (x.isNegative != y.isNegative) (x.units * unitsPerOne) y.units

/-- Sum of finite doubles that are not negative. -/
def add (x y : Double) : Double := round false (x.units + y.units) 1

/-- The order of doubles that are not negative and not NaN, infinity on top. -/
def magnitudeLE (x y : Double) : Bool := x.bits.toNat % (1 <<< 63) ≤ y.bits.toNat % (1 <<< 63)

/-- The larger of a double and one; NaN and negative numbers give one. -/
def atLeastOne (x : Double) : Double :=
  let one := ofNat 1
  if x.isNaN || x.isNegative || x.magnitudeLE one then one else x

/-- Power with a natural exponent, by repeated squaring from the low bit on. -/
def pow (x : Double) (n : Nat) : Double := go x n (ofNat 1)
where
  /-- Multiplies `acc` by the powers `x ^ 2 ^ i` for the bits `i` of `n`. -/
  go (x : Double) (n : Nat) (acc : Double) : Double :=
    let acc := if n % 2 = 1 then acc.mul x else acc
    if _h : n / 2 = 0 then acc else go (x.mul x) (n / 2) acc
  termination_by n

/-- The double with the value of a binary32 number, by its bit pattern. -/
def ofSingle (bits : Nat) : Double :=
  let negative : Bool := 1 <<< 31 ≤ bits
  let exponent := bits >>> 23 % (1 <<< 8)
  let fraction := bits % (1 <<< 23)
  if exponent = 255 then
    if fraction = 0 then infinity negative else pack negative 2047 (fraction <<< 29)
  else if exponent = 0 then ofUnits negative (fraction <<< 925)
  else ofUnits negative ((1 <<< 23 + fraction) <<< (exponent - 1) <<< 925)

end Double

end CourierDispatch
