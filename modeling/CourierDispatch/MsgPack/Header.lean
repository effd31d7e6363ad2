import CourierDispatch.Token

/-!
# Headers of MsgPack

A MsgPack value begins with a marker byte. It holds a small value or length itself, or it says how
many bytes of a number follow and what that number is. `Field.item` tells what such a number
announces.
-/

namespace CourierDispatch.MsgPack

/-- The number with the given bytes, the most significant one first. -/
def bigEndian (bs : List UInt8) : Nat := bs.foldl (fun n b => n * 256 + b.toNat) 0

/-- The last `width` bytes of a number, the most significant one first. -/
def bytesOf : (width n : Nat) → List UInt8
  | 0, _ => []
  | width + 1, n => bytesOf width (n / 256) ++ [(n % 256).toUInt8]

/-- The values with a body of so many bytes. -/
inductive BodyKind
  | text
  | bytes
  | extension
deriving DecidableEq, Repr

/-- What a header announces. -/
inductive Item
  | scalar (t : Token)
  | body (kind : BodyKind) (length : Nat)
  | array (length : Nat)
  | map (length : Nat)
deriving DecidableEq, Repr

/-- What the number in a header is. -/
inductive Field
  | natural
  | integer
  | single
  | double
  | length (kind : BodyKind)
  | arrayLength
  | mapLength
deriving DecidableEq, Repr

def Field.item (width n : Nat) : Field → Item
  | natural => .scalar (.natural n)
  | integer =>
    .scalar (.integer (if n < 1 <<< (8 * width - 1) then n else (n : Int) - (1 <<< (8 * width) : Nat)))
  | single => .scalar (.float (.ofSingle n))
  | double => .scalar (.float ⟨n.toUInt64⟩)
  | length kind => .body kind n
  | arrayLength => .array n
  | mapLength => .map n

inductive Marker
  | item (i : Item)
  | field (f : Field) (width : Nat)
deriving DecidableEq, Repr

def marker? (b : UInt8) : Option Marker :=
  let n := b.toNat
  if n < 0x80 then some (.item (.scalar (.natural n)))
  else if n < 0x90 then some (.item (.map (n - 0x80)))
  else if n < 0xA0 then some (.item (.array (n - 0x90)))
  else if n < 0xC0 then some (.item (.body .text (n - 0xA0)))
  else if 0xE0 ≤ n then some (.item (.scalar (.integer ((n : Int) - 0x100))))
  else
    match n with
    | 0xC0 => some (.item (.scalar .null))
    | 0xC2 => some (.item (.scalar (.bool false)))
    | 0xC3 => some (.item (.scalar (.bool true)))
    | 0xC4 => some (.field (.length .bytes) 1)
    | 0xC5 => some (.field (.length .bytes) 2)
    | 0xC6 => some (.field (.length .bytes) 4)
    | 0xC7 => some (.field (.length .extension) 1)
    | 0xC8 => some (.field (.length .extension) 2)
    | 0xC9 => some (.field (.length .extension) 4)
    | 0xCA => some (.field .single 4)
    | 0xCB => some (.field .double 8)
    | 0xCC => some (.field .natural 1)
    | 0xCD => some (.field .natural 2)
    | 0xCE => some (.field .natural 4)
    | 0xCF => some (.field .natural 8)
    | 0xD0 => some (.field .integer 1)
    | 0xD1 => some (.field .integer 2)
    | 0xD2 => some (.field .integer 4)
    | 0xD3 => some (.field .integer 8)
    | 0xD4 => some (.item (.body .extension 1))
    | 0xD5 => some (.item (.body .extension 2))
    | 0xD6 => some (.item (.body .extension 4))
    | 0xD7 => some (.item (.body .extension 8))
    | 0xD8 => some (.item (.body .extension 16))
    | 0xD9 => some (.field (.length .text) 1)
    | 0xDA => some (.field (.length .text) 2)
    | 0xDB => some (.field (.length .text) 4)
    | 0xDC => some (.field .arrayLength 2)
    | 0xDD => some (.field .arrayLength 4)
    | 0xDE => some (.field .mapLength 2)
    | 0xDF => some (.field .mapLength 4)
    | _ => none

end CourierDispatch.MsgPack
