/-!
# Random draws

What is left to chance is read from a stream of draws. Statements about every outcome are statements
about every stream.
-/

namespace CourierDispatch

/-- A stream of random numbers and how many of them have been used. -/
structure Draws where
  draw : Nat → Nat
  used : Nat := 0

namespace Draws

def next (d : Draws) : Nat := d.draw d.used

def rest (d : Draws) : Draws := { d with used := d.used + 1 }

def counting (first : Nat) : Draws := ⟨fun i => first + i, 0⟩

def mix (n : UInt64) : UInt64 :=
  let a := (n ^^^ (n >>> 30)) * 0xBF58476D1CE4E5B9
  let b := (a ^^^ (a >>> 27)) * 0x94D049BB133111EB
  b ^^^ (b >>> 31)

/-- The distance between numbers that are mixed one after the other: odd, so that all are different. -/
def stride : UInt64 := 0x9E3779B97F4A7C15

/-- The stream that grows out of a seed. Its numbers have 128 bits. -/
def seeded (seed : UInt64) : Draws :=
  ⟨fun i =>
    let n := seed + UInt64.ofNat (2 * i) * stride
    (mix n).toNat <<< 64 + (mix (n + stride)).toNat, 0⟩

end Draws

end CourierDispatch
