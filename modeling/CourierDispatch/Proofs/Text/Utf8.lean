import CourierDispatch.Text.Utf8

/-!
# UTF-8 there and back

`uncons?` takes off exactly the character that `encodeChar` has put in front, and takes off nothing
else. So `decode?` undoes `encode`, and what `decode?` accepts is the encoding of what it gives.
-/

namespace CourierDispatch.Utf8

theorem toNat_toUInt8 {n : Nat} (h : n < 256) : n.toUInt8.toNat = n :=
  UInt8.toNat_ofNat_of_lt h

theorem eq_toUInt8_of_toNat {b : UInt8} {n : Nat} (h : b.toNat = n) : b = n.toUInt8 := by
  have hn : n < 256 := h ▸ b.toNat_lt
  exact UInt8.toNat_inj.1 (h.trans (toNat_toUInt8 hn).symm)

theorem continuation?_eq_some_iff {b : UInt8} {x : Nat} :
    continuation? b = some x ↔ x < 64 ∧ b = (0x80 + x).toUInt8 := by
  constructor
  · intro h
    unfold continuation? at h
    split at h
    · have hx := Option.some.inj h
      exact ⟨by omega, eq_toUInt8_of_toNat (by omega)⟩
    · simp at h
  · rintro ⟨hx, rfl⟩
    have hb := toNat_toUInt8 (n := 0x80 + x) (by omega)
    have hle : 0x80 ≤ (0x80 + x).toUInt8.toNat ∧ (0x80 + x).toUInt8.toNat < 0xC0 := by omega
    rw [continuation?, if_pos hle, hb]
    simp

theorem gather_continuation {k n x : Nat} (hx : x < 64) (s : List UInt8) :
    gather (k + 1) n ((0x80 + x).toUInt8 :: s) = gather k (n * 64 + x) s := by
  rw [gather, continuation?_eq_some_iff.2 ⟨hx, rfl⟩]
  rfl

theorem lead?_one {x : Nat} (hx : x < 0x80) : lead? x.toUInt8 = some (0, x, 0) := by
  have hb := toNat_toUInt8 (n := x) (by omega)
  simp only [lead?, hb]
  rw [if_pos hx]

theorem lead?_two {x : Nat} (hx : x < 32) : lead? (0xC0 + x).toUInt8 = some (1, x, 0x80) := by
  have hb := toNat_toUInt8 (n := 0xC0 + x) (by omega)
  simp only [lead?, hb]
  rw [if_neg (by omega), if_neg (by omega), if_pos (by omega)]
  simp

theorem lead?_three {x : Nat} (hx : x < 16) :
    lead? (0xE0 + x).toUInt8 = some (2, x, 0x800) := by
  have hb := toNat_toUInt8 (n := 0xE0 + x) (by omega)
  simp only [lead?, hb]
  rw [if_neg (by omega), if_neg (by omega), if_neg (by omega), if_pos (by omega)]
  simp

theorem lead?_four {x : Nat} (hx : x < 8) :
    lead? (0xF0 + x).toUInt8 = some (3, x, 0x10000) := by
  have hb := toNat_toUInt8 (n := 0xF0 + x) (by omega)
  simp only [lead?, hb]
  rw [if_neg (by omega), if_neg (by omega), if_neg (by omega), if_neg (by omega),
    if_pos (by omega)]
  simp

theorem lead?_cases {b : UInt8} {k n least : Nat} (h : lead? b = some (k, n, least)) :
    (k = 0 ∧ n < 0x80 ∧ least = 0 ∧ b = n.toUInt8) ∨
      (k = 1 ∧ n < 32 ∧ least = 0x80 ∧ b = (0xC0 + n).toUInt8) ∨
      (k = 2 ∧ n < 16 ∧ least = 0x800 ∧ b = (0xE0 + n).toUInt8) ∨
      (k = 3 ∧ n < 8 ∧ least = 0x10000 ∧ b = (0xF0 + n).toUInt8) := by
  have hinj {a b c : Nat} (h : some (a, b, c) = some (k, n, least)) :
      a = k ∧ b = n ∧ c = least := by simpa using h
  simp only [lead?] at h
  split at h
  · obtain ⟨rfl, hn, rfl⟩ := hinj h
    exact Or.inl ⟨rfl, by omega, rfl, eq_toUInt8_of_toNat hn⟩
  split at h
  · simp at h
  split at h
  · obtain ⟨rfl, hn, rfl⟩ := hinj h
    exact Or.inr (Or.inl ⟨rfl, by omega, rfl, eq_toUInt8_of_toNat (by omega)⟩)
  split at h
  · obtain ⟨rfl, hn, rfl⟩ := hinj h
    exact Or.inr (Or.inr (Or.inl ⟨rfl, by omega, rfl, eq_toUInt8_of_toNat (by omega)⟩))
  split at h
  · obtain ⟨rfl, hn, rfl⟩ := hinj h
    exact Or.inr (Or.inr (Or.inr ⟨rfl, by omega, rfl, eq_toUInt8_of_toNat (by omega)⟩))
  · simp at h

theorem isValidChar_toNat (c : Char) : c.toNat.isValidChar := c.valid

theorem toNat_lt (c : Char) : c.toNat < 0x110000 := by
  have h := isValidChar_toNat c
  unfold Nat.isValidChar at h
  omega

theorem scalar?_toNat {least : Nat} {c : Char} (h : least ≤ c.toNat) :
    scalar? least c.toNat = some c := by
  rw [scalar?, if_pos ⟨h, isValidChar_toNat c⟩, Char.ofNat_toNat]

theorem toNat_ofNat {n : Nat} (hn : n.isValidChar) : (Char.ofNat n).toNat = n := by
  rw [Char.ofNat, dif_pos hn]
  rfl

theorem scalar?_eq_some {least n : Nat} {c : Char} (h : scalar? least n = some c) :
    least ≤ n ∧ c.toNat = n := by
  unfold scalar? at h
  split at h
  next hn =>
    cases h
    exact ⟨hn.1, toNat_ofNat hn.2⟩
  next => cases h

theorem uncons?_encodeChar_append (c : Char) (s : List UInt8) :
    uncons? (encodeChar c ++ s) = some (c, s) := by
  have hlt := toNat_lt c
  unfold encodeChar encodeScalar
  split
  · rw [List.singleton_append, uncons?, lead?_one (by omega)]
    simp [gather, scalar?_toNat]
  split
  · rw [List.cons_append, List.singleton_append, uncons?, lead?_two (by omega)]
    simp only [Option.bind_some]
    rw [gather_continuation (by omega)]
    have hn : c.toNat / 64 * 64 + c.toNat % 64 = c.toNat := by omega
    rw [hn]
    have hscalar : scalar? 0x80 c.toNat = some c := scalar?_toNat (by omega)
    simp [gather, hscalar]
  split
  · rw [List.cons_append, List.cons_append, List.singleton_append, uncons?,
      lead?_three (by omega)]
    simp only [Option.bind_some]
    rw [gather_continuation (by omega), gather_continuation (by omega)]
    have hn : (c.toNat / 4096 * 64 + c.toNat / 64 % 64) * 64 + c.toNat % 64 = c.toNat := by
      omega
    rw [hn]
    have hscalar : scalar? 0x800 c.toNat = some c := scalar?_toNat (by omega)
    simp [gather, hscalar]
  · rw [List.cons_append, List.cons_append, List.cons_append, List.singleton_append, uncons?,
      lead?_four (by omega)]
    simp only [Option.bind_some]
    rw [gather_continuation (by omega), gather_continuation (by omega),
      gather_continuation (by omega)]
    have hn : ((c.toNat / 262144 * 64 + c.toNat / 4096 % 64) * 64 + c.toNat / 64 % 64) * 64
        + c.toNat % 64 = c.toNat := by omega
    rw [hn]
    have hscalar : scalar? 0x10000 c.toNat = some c := scalar?_toNat (by omega)
    simp [gather, hscalar]

theorem gather_succ_eq_some {k n m : Nat} {s r : List UInt8}
    (h : gather (k + 1) n s = some (m, r)) :
    ∃ x s', x < 64 ∧ s = (0x80 + x).toUInt8 :: s' ∧ gather k (n * 64 + x) s' = some (m, r) := by
  cases s with
  | nil => simp [gather] at h
  | cons b s =>
      obtain ⟨x, hx, hg⟩ := Option.bind_eq_some_iff.1 h
      obtain ⟨hlt, hb⟩ := continuation?_eq_some_iff.1 hx
      exact ⟨x, s, hlt, by rw [hb], hg⟩

theorem eq_encodeChar_append_of_uncons? {s r : List UInt8} {c : Char}
    (h : uncons? s = some (c, r)) : s = encodeChar c ++ r := by
  cases s with
  | nil => simp [uncons?] at h
  | cons b s =>
      obtain ⟨⟨k, n, least⟩, hl, h⟩ := Option.bind_eq_some_iff.1 h
      obtain ⟨⟨m, r'⟩, hg, h⟩ := Option.bind_eq_some_iff.1 h
      obtain ⟨d, hd, hdr⟩ := Option.map_eq_some_iff.1 h
      obtain ⟨rfl, rfl⟩ := Prod.mk.inj hdr
      obtain ⟨hle, hm⟩ := scalar?_eq_some hd
      rw [encodeChar, encodeScalar, hm]
      clear h hdr hd hm
      rcases lead?_cases hl with ⟨rfl, hn, rfl, rfl⟩ | ⟨rfl, hn, rfl, rfl⟩ |
        ⟨rfl, hn, rfl, rfl⟩ | ⟨rfl, hn, rfl, rfl⟩
      · obtain ⟨rfl, rfl⟩ : n = m ∧ s = r' := by simpa [gather] using hg
        rw [if_pos hn]
        rfl
      · obtain ⟨x, t, hx, rfl, hg'⟩ := gather_succ_eq_some hg
        obtain ⟨rfl, rfl⟩ : n * 64 + x = m ∧ t = r' := by simpa [gather] using hg'
        rw [if_neg (by omega), if_pos (by omega)]
        have h1 : (n * 64 + x) / 64 = n := by omega
        have h0 : (n * 64 + x) % 64 = x := by omega
        rw [h1, h0]
        rfl
      · obtain ⟨x, t, hx, rfl, hg'⟩ := gather_succ_eq_some hg
        obtain ⟨y, u, hy, rfl, hg''⟩ := gather_succ_eq_some hg'
        obtain ⟨rfl, rfl⟩ : (n * 64 + x) * 64 + y = m ∧ u = r' := by simpa [gather] using hg''
        rw [if_neg (by omega), if_neg (by omega), if_pos (by omega)]
        have h2 : ((n * 64 + x) * 64 + y) / 4096 = n := by omega
        have h1 : ((n * 64 + x) * 64 + y) / 64 % 64 = x := by omega
        have h0 : ((n * 64 + x) * 64 + y) % 64 = y := by omega
        rw [h2, h1, h0]
        rfl
      · obtain ⟨x, t, hx, rfl, hg'⟩ := gather_succ_eq_some hg
        obtain ⟨y, u, hy, rfl, hg''⟩ := gather_succ_eq_some hg'
        obtain ⟨z, v, hz, rfl, hg'''⟩ := gather_succ_eq_some hg''
        obtain ⟨rfl, rfl⟩ : ((n * 64 + x) * 64 + y) * 64 + z = m ∧ v = r' := by
          simpa [gather] using hg'''
        rw [if_neg (by omega), if_neg (by omega), if_neg (by omega)]
        have h3 : (((n * 64 + x) * 64 + y) * 64 + z) / 262144 = n := by omega
        have h2 : (((n * 64 + x) * 64 + y) * 64 + z) / 4096 % 64 = x := by omega
        have h1 : (((n * 64 + x) * 64 + y) * 64 + z) / 64 % 64 = y := by omega
        have h0 : (((n * 64 + x) * 64 + y) * 64 + z) % 64 = z := by omega
        rw [h3, h2, h1, h0]
        rfl

theorem encodeChar_ne_nil (c : Char) : encodeChar c ≠ [] := by
  intro h
  have := uncons?_encodeChar_append c []
  rw [h] at this
  simp [uncons?] at this

theorem decode?_nil : decode? [] = some [] := by
  rw [decode?]

/-- Reading a list of bytes is reading its first character and then the rest. -/
theorem decode?_encodeChar_append (c : Char) (s : List UInt8) :
    decode? (encodeChar c ++ s) = (decode? s).map (c :: ·) := by
  have hu := uncons?_encodeChar_append c s
  cases hb : encodeChar c ++ s with
  | nil => exact absurd (List.append_eq_nil_iff.1 hb).1 (encodeChar_ne_nil c)
  | cons b r =>
      rw [hb] at hu
      rw [decode?]
      split
      next h => rw [hu] at h; cases h
      next d t h => rw [hu] at h; cases h; rfl

theorem decode?_encode (cs : List Char) : decode? (encode cs) = some cs := by
  induction cs with
  | nil => exact decode?_nil
  | cons c cs ih => rw [encode_cons, decode?_encodeChar_append, ih]; rfl

/-- Only encodings are read. -/
theorem eq_encode_of_decode? {s : List UInt8} {cs : List Char} (h : decode? s = some cs) :
    s = encode cs := by
  induction hn : s.length using Nat.strongRecOn generalizing s cs with
  | ind n ih =>
      cases s with
      | nil =>
          rw [decode?_nil] at h
          cases h
          rfl
      | cons b r =>
          rw [decode?] at h
          split at h
          next => cases h
          next c t hu =>
            obtain ⟨ds, hds, rfl⟩ := Option.map_eq_some_iff.1 h
            have hlt := length_lt_of_uncons? hu
            rw [eq_encodeChar_append_of_uncons? hu, encode_cons, ← ih _ (hn ▸ hlt) hds rfl]

theorem string?_encode (cs : List Char) : string? (encode cs) = some (String.ofList cs) := by
  rw [string?, decode?_encode]
  rfl

theorem string?_bytes (s : String) : string? (bytes s) = some s := by
  rw [bytes, string?_encode, String.ofList_toList]

theorem bytes_of_string? {bs : List UInt8} {s : String} (h : string? bs = some s) :
    bytes s = bs := by
  obtain ⟨cs, hcs, rfl⟩ := Option.map_eq_some_iff.1 h
  rw [bytes, String.toList_ofList, ← eq_encode_of_decode? hcs]

theorem encodeChar_ascii {c : Char} (h : c.toNat < 0x80) : encodeChar c = [c.toNat.toUInt8] := by
  rw [encodeChar, encodeScalar, if_pos h]

theorem le_of_mem_encodeChar {c : Char} (h : 0x80 ≤ c.toNat) {b : UInt8}
    (hb : b ∈ encodeChar c) : 0x80 ≤ b.toNat := by
  have hlt := toNat_lt c
  unfold encodeChar encodeScalar at hb
  rw [if_neg (by omega)] at hb
  split at hb
  · simp only [List.mem_cons, List.not_mem_nil, or_false] at hb
    rcases hb with rfl | rfl <;> rw [toNat_toUInt8 (by omega)] <;> omega
  split at hb
  · simp only [List.mem_cons, List.not_mem_nil, or_false] at hb
    rcases hb with rfl | rfl | rfl <;> rw [toNat_toUInt8 (by omega)] <;> omega
  · simp only [List.mem_cons, List.not_mem_nil, or_false] at hb
    rcases hb with rfl | rfl | rfl | rfl <;> rw [toNat_toUInt8 (by omega)] <;> omega

theorem length_encodeChar_le (c : Char) : (encodeChar c).length ≤ 4 := by
  unfold encodeChar encodeScalar
  split
  · simp
  split
  · simp
  split
  · simp
  · simp

theorem length_encode_le (cs : List Char) : (encode cs).length ≤ 4 * cs.length := by
  induction cs with
  | nil => exact Nat.le_refl 0
  | cons c cs ih =>
      have hc := length_encodeChar_le c
      rw [encode_cons, List.length_append, List.length_cons]
      omega

end CourierDispatch.Utf8
