import CourierDispatch.Text.Hex
import CourierDispatch.Text.Utf8

/-!
# Quoted text of JSON

A string is read byte by byte behind its opening quote. A read string is checked: escapes of
surrogates have to come in pairs, and the bytes have to be UTF-8. A string that is passed over is not
checked, but its escapes still need their shape, and control characters have to be escaped in both.
-/

namespace CourierDispatch.Json

def asChar (b : UInt8) : Char := Char.ofNat b.toNat

/-- What the last bytes of a string began. `high` is the first half of a surrogate pair. -/
inductive Escape
  | none
  | backslash
  /-- The digits of an escape, the latest first. -/
  | hex (high : Option Nat) (digits : List Char)
  /-- A first half was read: a backslash comes next. -/
  | pair (high : Nat)
  /-- A first half and a backslash were read: a `u` comes next. -/
  | pairMark (high : Nat)
deriving DecidableEq, Repr

/-- A string being read: whether it is passed over, its bytes (the latest first), and the escape at
its end. -/
structure Quoted where
  skim : Bool
  content : List UInt8 := []
  escape : Escape := .none
deriving DecidableEq, Repr

namespace Quoted

/-- What a byte means for a string: it goes on, it ended with these bytes, or it is none. -/
inductive Reaction
  | more (q : Quoted)
  | closed (content : List UInt8)
  | wrong

def push (q : Quoted) (bs : List UInt8) : Quoted :=
  { q with content := bs.reverse ++ q.content, escape := .none }

/-- The character that follows a backslash in a short escape, by its code. -/
def short? : Char → Option UInt8
  | '"' => some 0x22
  | '\\' => some 0x5C
  | '/' => some 0x2F
  | 'b' => some 0x08
  | 'f' => some 0x0C
  | 'n' => some 0x0A
  | 'r' => some 0x0D
  | 't' => some 0x09
  | _ => none

def isHigh (n : Nat) : Bool := 0xD800 ≤ n && n < 0xDC00

def isLow (n : Nat) : Bool := 0xDC00 ≤ n && n < 0xE000

def unit (q : Quoted) (high : Option Nat) (n : Nat) : Reaction :=
  if q.skim then .more { q with escape := .none }
  else
    match high with
    | some h =>
      if isLow n then
        .more (q.push (Utf8.encodeScalar (0x10000 + (h - 0xD800) * 0x400 + (n - 0xDC00))))
      else .wrong
    | none =>
      if isHigh n then .more { q with escape := .pair n }
      else if isLow n then .wrong
      else .more (q.push (Utf8.encodeScalar n))

def step (q : Quoted) (b : UInt8) : Reaction :=
  let c := asChar b
  match q.escape with
  | .none =>
    if c = '"' then .closed q.content.reverse
    else if c = '\\' then .more { q with escape := .backslash }
    else if b < 0x20 then .wrong
    else .more (q.push [b])
  | .backslash =>
    if c = 'u' then .more { q with escape := .hex none [] }
    else
      match short? c with
      | some b => .more (q.push [b])
      | none => .wrong
  | .hex high digits =>
    if digits.length < 3 then .more { q with escape := .hex high (c :: digits) }
    else
      match Hex.number? (c :: digits).reverse with
      | some n => q.unit high n
      | none => .wrong
  | .pair high => if c = '\\' then .more { q with escape := .pairMark high } else .wrong
  | .pairMark high => if c = 'u' then .more { q with escape := .hex (some high) [] } else .wrong

end Quoted

end CourierDispatch.Json
