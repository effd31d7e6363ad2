import CourierDispatch.Numeric.Shortest
import CourierDispatch.Text.Hex
import CourierDispatch.Text.Utf8
import CourierDispatch.Value

/-!
# Writing JSON

Values are written compactly, without blanks. Text is escaped only where it has to be: quotes,
backslashes and control characters.
-/

namespace CourierDispatch.Json

/-- Doubles are written without an exponent from `0.00001` up to `10 ^ 16`. -/
def layout : DecimalLayout := ⟨fun lead => -5 ≤ lead && lead ≤ 15⟩

def escape (c : Char) : List Char :=
  if c = '"' then ['\\', '"']
  else if c = '\\' then ['\\', '\\']
  else if c = '\n' then ['\\', 'n']
  else if c = '\r' then ['\\', 'r']
  else if c = '\t' then ['\\', 't']
  else if c.toNat = 8 then ['\\', 'b']
  else if c.toNat = 12 then ['\\', 'f']
  else if c.toNat < 32 then '\\' :: 'u' :: Hex.digits 4 c.toNat
  else [c]

def quote (cs : List Char) : List Char := '"' :: cs.flatMap escape ++ ['"']

def wholeText (n : Int) : List Char :=
  if n < 0 then '-' :: Decimal.digitsOf n.natAbs else Decimal.digitsOf n.natAbs

def numberText : Number → List Char
  | .whole n => wholeText n
  | .double x => (x.text layout).toList

def commaSeparated : List (List Char) → List Char
  | [] => []
  | [p] => p
  | p :: ps => p ++ ',' :: commaSeparated ps

mutual
def text : Value → List Char
  | .null => ['n', 'u', 'l', 'l']
  | .bool true => ['t', 'r', 'u', 'e']
  | .bool false => ['f', 'a', 'l', 's', 'e']
  | .number n => numberText n
  | .string s => quote s.toList
  | .array items => '[' :: commaSeparated (itemTexts items) ++ [']']
  | .object members => '{' :: commaSeparated (memberTexts members) ++ ['}']

def itemTexts : List Value → List (List Char)
  | [] => []
  | v :: rest => text v :: itemTexts rest

def memberTexts : List (String × Value) → List (List Char)
  | [] => []
  | (k, v) :: rest => (quote k.toList ++ ':' :: text v) :: memberTexts rest
end

def print (v : Value) : List UInt8 := Utf8.encode (text v)

end CourierDispatch.Json
