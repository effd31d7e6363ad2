import CourierDispatch.Text.Cut
import CourierDispatch.Text.Hex

/-!
# UUIDs

A UUID has 128 bits. It is written as 32 lower-case hexadecimal digits in five groups. It is read from
the digits in either letter case: in groups, in groups with braces around them or `urn:uuid:` in front,
or without groups.
-/

namespace CourierDispatch

structure Uuid where
  bits : BitVec 128
deriving DecidableEq, Repr

namespace Uuid

def groups : List Nat := [8, 4, 4, 4, 12]

/-- Cuts a text into groups of the given lengths with hyphens between them. -/
def grouped : List Nat → List Char → List Char
  | n :: m :: ns, cs => cs.take n ++ '-' :: grouped (m :: ns) (cs.drop n)
  | _, cs => cs

def toText (u : Uuid) : String :=
  String.ofList (grouped groups (Hex.digits 32 u.bits.toNat))

def ofDigits? (cs : List Char) : Option Uuid :=
  if cs.length = 32 then (Hex.number? cs).map fun n => ⟨BitVec.ofNat 128 n⟩ else none

def ofGroups? (cs : List Char) : Option Uuid :=
  let ps := Text.pieces '-' cs
  if ps.map List.length = groups then ofDigits? ps.flatten else none

/-- What stands in front of a UUID that is a name. -/
def urn : List Char := "urn:uuid:".toList

def braced? (cs : List Char) : Option (List Char) :=
  match cs with
  | '\x7b' :: rest => if rest.getLast? = some '\x7d' then some rest.dropLast else none
  | _ => none

def named? (cs : List Char) : Option (List Char) :=
  if (cs.take urn.length).map Char.toLower = urn then some (cs.drop urn.length) else none

def ofText? (s : String) : Option Uuid :=
  let cs := s.toList
  match braced? cs, named? cs with
  | some inner, _ => ofGroups? inner
  | none, some inner => ofGroups? inner
  | none, none => if cs.length = 32 then ofDigits? cs else ofGroups? cs

/-- The number of the version, held in the four bits behind the first twelve digits. -/
def version (u : Uuid) : Nat := u.bits.toNat >>> 76 % 16

/-- The two bits behind the first sixteen digits, which say how the bits are laid out. -/
def variant (u : Uuid) : Nat := u.bits.toNat >>> 62 % 4

/-- The UUID of version 4 whose other bits are drawn from a number. -/
def random (draw : Nat) : Uuid :=
  let low := draw % (1 <<< 62)
  let middle := draw >>> 62 % (1 <<< 12)
  let high := draw >>> 74 % (1 <<< 48)
  ⟨BitVec.ofNat 128 (high <<< 80 + 4 <<< 76 + middle <<< 64 + 2 <<< 62 + low)⟩

end Uuid

end CourierDispatch
