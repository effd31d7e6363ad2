/-!
# UTF-8

Characters and their UTF-8 bytes. `encode` writes a list of characters, `decode?` reads one back and
refuses everything else: overlong forms, surrogates, values above `10FFFF` and sequences cut short.
-/

namespace CourierDispatch.Utf8

def encodeScalar (n : Nat) : List UInt8 :=
  if n < 0x80 then [n.toUInt8]
  else if n < 0x800 then [(0xC0 + n / 64).toUInt8, (0x80 + n % 64).toUInt8]
  else if n < 0x10000 then
    [(0xE0 + n / 4096).toUInt8, (0x80 + n / 64 % 64).toUInt8, (0x80 + n % 64).toUInt8]
  else
    [(0xF0 + n / 262144).toUInt8, (0x80 + n / 4096 % 64).toUInt8,
      (0x80 + n / 64 % 64).toUInt8, (0x80 + n % 64).toUInt8]

def encodeChar (c : Char) : List UInt8 := encodeScalar c.toNat

def encode (cs : List Char) : List UInt8 := cs.flatMap encodeChar

@[simp] theorem encode_nil : encode [] = [] := rfl

@[simp] theorem encode_cons (c : Char) (cs : List Char) :
    encode (c :: cs) = encodeChar c ++ encode cs := rfl

theorem encode_append (cs ds : List Char) : encode (cs ++ ds) = encode cs ++ encode ds :=
  List.flatMap_append

def bytes (s : String) : List UInt8 := encode s.toList

/-- The six low bits of a continuation byte, or `none` for any other byte. -/
def continuation? (b : UInt8) : Option Nat :=
  if 0x80 ≤ b.toNat ∧ b.toNat < 0xC0 then some (b.toNat - 0x80) else none

/-- The character with scalar value `n`, if there is one and `n` is at least `least`: a smaller
value has a shorter form, and only that form is read. -/
def scalar? (least n : Nat) : Option Char :=
  if least ≤ n ∧ n.isValidChar then some (Char.ofNat n) else none

/-- What the first byte of a character says: how many continuation bytes follow, the leading bits,
and the least value that needs so many bytes. -/
def lead? (b : UInt8) : Option (Nat × Nat × Nat) :=
  let n := b.toNat
  if n < 0x80 then some (0, n, 0)
  else if n < 0xC0 then none
  else if n < 0xE0 then some (1, n - 0xC0, 0x80)
  else if n < 0xF0 then some (2, n - 0xE0, 0x800)
  else if n < 0xF8 then some (3, n - 0xF0, 0x10000)
  else none

/-- Reads `k` continuation bytes behind the leading bits `n`. -/
def gather : (k n : Nat) → List UInt8 → Option (Nat × List UInt8)
  | 0, n, s => some (n, s)
  | _ + 1, _, [] => none
  | k + 1, n, b :: s => (continuation? b).bind fun x => gather k (n * 64 + x) s

theorem length_le_of_gather {k n m : Nat} {s r : List UInt8} (h : gather k n s = some (m, r)) :
    r.length ≤ s.length := by
  induction k generalizing n s with
  | zero => cases h; exact Nat.le_refl _
  | succ k ih =>
    cases s with
    | nil => simp [gather] at h
    | cons b s =>
      obtain ⟨x, -, h⟩ := Option.bind_eq_some_iff.1 h
      exact Nat.le_succ_of_le (ih h)

def uncons? : List UInt8 → Option (Char × List UInt8)
  | [] => none
  | b :: s =>
    (lead? b).bind fun (k, n, least) =>
      (gather k n s).bind fun (m, r) => (scalar? least m).map (·, r)

theorem length_lt_of_uncons? {s r : List UInt8} {c : Char} (h : uncons? s = some (c, r)) :
    r.length < s.length := by
  cases s with
  | nil => simp [uncons?] at h
  | cons b s =>
    obtain ⟨⟨k, n, least⟩, -, h⟩ := Option.bind_eq_some_iff.1 h
    obtain ⟨⟨m, r'⟩, hg, h⟩ := Option.bind_eq_some_iff.1 h
    obtain ⟨d, -, h⟩ := Option.map_eq_some_iff.1 h
    cases h
    exact Nat.lt_succ_of_le (length_le_of_gather hg)

/-- The characters that the bytes spell, or `none` if they are not UTF-8. -/
def decode? (s : List UInt8) : Option (List Char) :=
  match s with
  | [] => some []
  | b :: r =>
    match _h : uncons? (b :: r) with
    | none => none
    | some (c, r) => (decode? r).map (c :: ·)
termination_by s.length
decreasing_by exact length_lt_of_uncons? _h

/-- The string that the bytes spell, or `none` if they are not UTF-8. -/
def string? (s : List UInt8) : Option String := (decode? s).map String.ofList

end CourierDispatch.Utf8
