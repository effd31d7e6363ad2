import CourierDispatch.MsgPack.Header
import CourierDispatch.Text.Utf8

/-!
# Writing MsgPack

Every number and every length is written with the shortest header that holds it, and doubles are
written as they are. Of a length, only the last 32 bits are written.
-/

namespace CourierDispatch.MsgPack

/-- A marker byte followed by a number of `width` bytes. -/
def field (marker : UInt8) (width n : Nat) : List UInt8 := marker :: bytesOf width n

def naturalBytes (n : Nat) : List UInt8 :=
  if n < 0x80 then [n.toUInt8]
  else if n < 0x100 then field 0xCC 1 n
  else if n < 0x10000 then field 0xCD 2 n
  else if n < 0x100000000 then field 0xCE 4 n
  else field 0xCF 8 n

def negativeBytes (n : Nat) : List UInt8 :=
  if n ≤ 0x20 then [(0x100 - n).toUInt8]
  else if n ≤ 0x80 then field 0xD0 1 (0x100 - n)
  else if n ≤ 0x8000 then field 0xD1 2 (0x10000 - n)
  else if n ≤ 0x80000000 then field 0xD2 4 (0x100000000 - n)
  else field 0xD3 8 (0x10000000000000000 - n)

def numberBytes : Number → List UInt8
  | .whole n => if n < 0 then negativeBytes n.natAbs else naturalBytes n.natAbs
  | .double x => field 0xCB 8 x.bits.toNat

/-- What is written of a length. -/
def shortLength (length : Nat) : Nat := length % 0x100000000

def textHeader (length : Nat) : List UInt8 :=
  let n := shortLength length
  if n < 32 then [(0xA0 + n).toUInt8]
  else if n < 0x100 then field 0xD9 1 n
  else if n < 0x10000 then field 0xDA 2 n
  else field 0xDB 4 n

def arrayHeader (length : Nat) : List UInt8 :=
  let n := shortLength length
  if n < 16 then [(0x90 + n).toUInt8]
  else if n < 0x10000 then field 0xDC 2 n
  else field 0xDD 4 n

def mapHeader (length : Nat) : List UInt8 :=
  let n := shortLength length
  if n < 16 then [(0x80 + n).toUInt8]
  else if n < 0x10000 then field 0xDE 2 n
  else field 0xDF 4 n

def textBytes (s : String) : List UInt8 :=
  textHeader (Utf8.bytes s).length ++ Utf8.bytes s

mutual
def print : Value → List UInt8
  | .null => [0xC0]
  | .bool false => [0xC2]
  | .bool true => [0xC3]
  | .number n => numberBytes n
  | .string s => textBytes s
  | .array items => arrayHeader items.length ++ printItems items
  | .object members => mapHeader members.length ++ printMembers members

def printItems : List Value → List UInt8
  | [] => []
  | v :: rest => print v ++ printItems rest

def printMembers : List (String × Value) → List UInt8
  | [] => []
  | (k, v) :: rest => textBytes k ++ print v ++ printMembers rest
end

end CourierDispatch.MsgPack
