import CourierDispatch.Json.Printer
import CourierDispatch.Json.Quoted
import CourierDispatch.Proofs.Text.Hex
import CourierDispatch.Proofs.Text.Utf8

/-!
# Reading quoted text

A quoted text goes through a `Quoted` byte by byte. Every character leaves its UTF-8 bytes behind, whether
it is written raw, with a short escape or by its number, and `escape` picks one of these ways. Text that
is passed over goes through in the same way, but what is left behind does not count.
-/

namespace CourierDispatch.Json

theorem asChar_toUInt8 {c : Char} (h : c.toNat < 0x80) : asChar c.toNat.toUInt8 = c := by
  rw [asChar, Utf8.toNat_toUInt8 (by omega), Char.ofNat_toNat]

theorem toNat_asChar (b : UInt8) : (asChar b).toNat = b.toNat := by
  have hlt := b.toNat_lt
  exact Utf8.toNat_ofNat (Or.inl (by omega))

theorem asChar_ne {b : UInt8} {c : Char} (h : b.toNat ≠ c.toNat) : asChar b ≠ c := by
  intro hc
  rw [← hc, toNat_asChar] at h
  exact h rfl

namespace Quoted

def more? (q : Quoted) (b : UInt8) : Option Quoted :=
  match q.step b with
  | .more q => some q
  | _ => none

def absorb (q : Quoted) (bs : List UInt8) : Option Quoted := bs.foldlM more? q

theorem absorb_nil (q : Quoted) : q.absorb [] = some q := rfl

theorem absorb_cons (q : Quoted) (b : UInt8) (bs : List UInt8) :
    q.absorb (b :: bs) = (q.more? b).bind fun q => q.absorb bs := rfl

theorem absorb_append (q : Quoted) (bs cs : List UInt8) :
    q.absorb (bs ++ cs) = (q.absorb bs).bind fun q => q.absorb cs := by
  induction bs generalizing q with
  | nil => rfl
  | cons b bs ih =>
      rw [List.cons_append, absorb_cons, absorb_cons]
      cases q.more? b with
      | none => rfl
      | some q => exact ih q

def IsRaw (b : UInt8) : Prop := 0x20 ≤ b.toNat ∧ b.toNat ≠ 0x22 ∧ b.toNat ≠ 0x5C

theorem more?_raw (skim : Bool) (content : List UInt8) {b : UInt8} (h : IsRaw b) :
    more? ⟨skim, content, .none⟩ b = some ⟨skim, b :: content, .none⟩ := by
  have hq : asChar b ≠ '"' := asChar_ne h.2.1
  have hs : asChar b ≠ '\\' := asChar_ne h.2.2
  have hc : ¬b < 0x20 := by
    rw [UInt8.lt_iff_toNat_lt]
    exact Nat.not_lt.2 h.1
  simp [more?, step, hq, hs, hc, push]

theorem absorb_raw (skim : Bool) (content bs : List UInt8) (h : ∀ b ∈ bs, IsRaw b) :
    absorb ⟨skim, content, .none⟩ bs = some ⟨skim, bs.reverse ++ content, .none⟩ := by
  induction bs generalizing content with
  | nil => rfl
  | cons b bs ih =>
      have hb : IsRaw b := h b List.mem_cons_self
      have hbs := ih (b :: content) fun b' hb' => h b' (List.mem_cons_of_mem _ hb')
      rw [absorb_cons, more?_raw skim content hb]
      simpa using hbs

theorem absorb_short (skim : Bool) (content : List UInt8) {c : Char} {b : UInt8}
    (hc : c.toNat < 0x80) (h : short? c = some b) :
    absorb ⟨skim, content, .none⟩ (Utf8.encode ['\\', c]) =
      some ⟨skim, b :: content, .none⟩ := by
  have hu : c ≠ 'u' := by
    rintro rfl
    simp [short?] at h
  have hbytes : Utf8.encode ['\\', c] = [0x5C, c.toNat.toUInt8] := by
    rw [Utf8.encode_cons, Utf8.encode_cons, Utf8.encodeChar_ascii hc]
    rfl
  have hback : more? ⟨skim, content, .none⟩ 0x5C = some ⟨skim, content, .backslash⟩ := rfl
  have hshort : more? ⟨skim, content, .backslash⟩ c.toNat.toUInt8 =
      some ⟨skim, b :: content, .none⟩ := by
    simp [more?, step, asChar_toUInt8 hc, hu, h, push]
  rw [hbytes, absorb_cons, hback]
  change (more? ⟨skim, content, .backslash⟩ c.toNat.toUInt8).bind _ = _
  rw [hshort]
  rfl

theorem more?_digit (skim : Bool) (content : List UInt8) (high : Option Nat) {digits : List Char}
    (hlen : digits.length < 3) {c : Char} (hc : c.toNat < 0x80) :
    more? ⟨skim, content, .hex high digits⟩ c.toNat.toUInt8 =
      some ⟨skim, content, .hex high (c :: digits)⟩ := by
  simp [more?, step, asChar_toUInt8 hc, hlen]

theorem absorb_digits (skim : Bool) (content : List UInt8) (high : Option Nat) {a b c d : Char}
    (h : ∀ x ∈ [a, b, c, d], x.toNat < 0x80) {n : Nat} (hn : Hex.number? [a, b, c, d] = some n) :
    absorb ⟨skim, content, .hex high []⟩ (Utf8.encode [a, b, c, d]) =
      match unit ⟨skim, content, .hex high [c, b, a]⟩ high n with
      | .more q => some q
      | _ => none := by
  have ha : a.toNat < 0x80 := h a (by simp)
  have hb : b.toNat < 0x80 := h b (by simp)
  have hc : c.toNat < 0x80 := h c (by simp)
  have hd : d.toNat < 0x80 := h d (by simp)
  have hbytes : Utf8.encode [a, b, c, d] =
      [a.toNat.toUInt8, b.toNat.toUInt8, c.toNat.toUInt8, d.toNat.toUInt8] := by
    simp [Utf8.encodeChar_ascii ha, Utf8.encodeChar_ascii hb, Utf8.encodeChar_ascii hc,
      Utf8.encodeChar_ascii hd]
  have hlast : more? ⟨skim, content, .hex high [c, b, a]⟩ d.toNat.toUInt8 =
      match unit ⟨skim, content, .hex high [c, b, a]⟩ high n with
      | .more q => some q
      | _ => none := by
    simp [more?, step, asChar_toUInt8 hd, hn]
  rw [hbytes, absorb_cons, more?_digit skim content high (by simp) ha]
  simp only [Option.bind_some]
  rw [absorb_cons, more?_digit skim content high (by simp) hb]
  simp only [Option.bind_some]
  rw [absorb_cons, more?_digit skim content high (by simp) hc]
  simp only [Option.bind_some]
  rw [absorb_cons, hlast]
  split <;> rfl

/-- Four digits make up the number of an escape, whatever came before it. -/
theorem absorb_hex (skim : Bool) (content : List UInt8) (high : Option Nat) {ds : List Char}
    (hlength : ds.length = 4) {n : Nat} (hn : Hex.number? ds = some n) :
    absorb ⟨skim, content, .hex high []⟩ (Utf8.encode ds) =
      match unit ⟨skim, content, .none⟩ high n with
      | .more q => some q
      | _ => none := by
  match ds, hlength with
  | [a, b, c, d], _ => exact absorb_digits skim content high (Hex.toNat_lt_of_number? hn) hn

/-- What may stand for a character inside quotes: the character itself, a short escape, its number, or
beyond the first plane the numbers of its two surrogates. -/
inductive Spells : List Char → Char → Prop
  | raw {c : Char} (hc : 0x20 ≤ c.toNat) (hquote : c ≠ '"') (hslash : c ≠ '\\') : Spells [c] c
  | short {c d : Char} {b : UInt8} (h : short? d = some b) (hb : c.toNat = b.toNat) :
    Spells ['\\', d] c
  | number {c : Char} {ds : List Char} (hlength : ds.length = 4)
      (h : Hex.number? ds = some c.toNat) : Spells ('\\' :: 'u' :: ds) c
  | pair {c : Char} {ds ds' : List Char} {high low : Nat} (hlength : ds.length = 4)
      (hlength' : ds'.length = 4) (h : Hex.number? ds = some high) (h' : Hex.number? ds' = some low)
      (hhigh : isHigh high = true) (hlow : isLow low = true)
      (hc : c.toNat = 0x10000 + (high - 0xD800) * 0x400 + (low - 0xDC00)) :
    Spells (('\\' :: 'u' :: ds) ++ '\\' :: 'u' :: ds') c

def SpellsText : List Char → List Char → Prop
  | ps, [] => ps = []
  | ps, c :: cs => ∃ p q, Spells p c ∧ SpellsText q cs ∧ ps = p ++ q

theorem isRaw_of_mem_encodeChar {c : Char} (hc : 0x20 ≤ c.toNat) (hquote : c ≠ '"')
    (hslash : c ≠ '\\') {b : UInt8} (hb : b ∈ Utf8.encodeChar c) : IsRaw b := by
  by_cases hascii : c.toNat < 0x80
  · rw [Utf8.encodeChar_ascii hascii, List.mem_singleton] at hb
    have hne {d : Char} (hd : c ≠ d) : c.toNat ≠ d.toNat := fun h => hd (Char.toNat_inj.1 h)
    rw [hb, IsRaw, Utf8.toNat_toUInt8 (by omega)]
    exact ⟨by omega, hne hquote, hne hslash⟩
  · have hle := Utf8.le_of_mem_encodeChar (by omega) hb
    exact ⟨by omega, by omega, by omega⟩

/-- Short escapes are of ASCII and stand for it. -/
theorem toNat_lt_of_short? {d : Char} {b : UInt8} (h : short? d = some b) :
    d.toNat < 0x80 ∧ b.toNat < 0x80 := by
  unfold short? at h
  split at h
  all_goals cases h
  all_goals decide

theorem not_surrogate (c : Char) : isHigh c.toNat = false ∧ isLow c.toNat = false := by
  have hvalid := Utf8.isValidChar_toNat c
  unfold Nat.isValidChar at hvalid
  simp only [isHigh, isLow, Bool.and_eq_false_iff, decide_eq_false_iff_not]
  omega

/-- What stands for a character leaves the bytes of this character. -/
theorem absorb_spells (skim : Bool) (content : List UInt8) {p : List Char} {c : Char}
    (h : Spells p c) :
    ∃ content', (skim = false → content' = (Utf8.encodeChar c).reverse ++ content) ∧
      absorb ⟨skim, content, .none⟩ (Utf8.encode p) = some ⟨skim, content', .none⟩ := by
  have hmark (q : List Char) : absorb ⟨skim, content, .none⟩ (Utf8.encode ('\\' :: 'u' :: q)) =
      absorb ⟨skim, content, .hex none []⟩ (Utf8.encode q) := rfl
  cases h with
  | raw hc hquote hslash =>
      refine ⟨(Utf8.encodeChar c).reverse ++ content, fun _ => rfl, ?_⟩
      rw [Utf8.encode_cons, Utf8.encode_nil, List.append_nil]
      exact absorb_raw skim content _ fun b hb => isRaw_of_mem_encodeChar hc hquote hslash hb
  | @short _ d b h hb =>
      obtain ⟨hd, hlt⟩ := toNat_lt_of_short? h
      have hbytes : Utf8.encodeChar c = [b] := by
        rw [Utf8.encodeChar_ascii (by omega), hb, ← Utf8.eq_toUInt8_of_toNat rfl]
      exact ⟨b :: content, by simp [hbytes], absorb_short skim content hd h⟩
  | number hlength h =>
      obtain ⟨hhigh, hlow⟩ := not_surrogate c
      rw [hmark, absorb_hex skim content none hlength h]
      cases skim with
      | true => exact ⟨content, by simp, rfl⟩
      | false =>
          refine ⟨(Utf8.encodeChar c).reverse ++ content, fun _ => rfl, ?_⟩
          simp [unit, hlow, hhigh, push, Utf8.encodeChar]
  | @pair _ ds ds' high low hlength hlength' h h' hhigh hlow hc =>
      rw [Utf8.encode_append, absorb_append, hmark, absorb_hex skim content none hlength h]
      cases skim with
      | true =>
          -- each half of a pair that is passed over is an escape of its own
          refine ⟨content, by simp, ?_⟩
          change absorb ⟨true, content, .hex none []⟩ (Utf8.encode ds') = _
          rw [absorb_hex true content none hlength' h']
          rfl
      | false =>
          refine ⟨(Utf8.encodeChar c).reverse ++ content, fun _ => rfl, ?_⟩
          have hfirst : unit ⟨false, content, .none⟩ none high = .more ⟨false, content, .pair high⟩ := by
            simp [unit, hhigh]
          rw [hfirst]
          change absorb ⟨false, content, .hex (some high) []⟩ (Utf8.encode ds') = _
          rw [absorb_hex false content (some high) hlength' h']
          simp [unit, hlow, push, Utf8.encodeChar, hc]

theorem absorb_spellsText (skim : Bool) (content : List UInt8) {ps cs : List Char}
    (h : SpellsText ps cs) :
    ∃ content', (skim = false → content' = (Utf8.encode cs).reverse ++ content) ∧
      absorb ⟨skim, content, .none⟩ (Utf8.encode ps) = some ⟨skim, content', .none⟩ := by
  induction cs generalizing content ps with
  | nil =>
      cases h
      exact ⟨content, by simp, rfl⟩
  | cons c cs ih =>
      obtain ⟨p, q, hp, hq, rfl⟩ := h
      obtain ⟨mid, hmid, hc⟩ := absorb_spells skim content hp
      obtain ⟨content', hcontent', hcs⟩ := ih mid hq
      refine ⟨content', ?_, ?_⟩
      · intro hskim
        rw [hcontent' hskim, hmid hskim, Utf8.encode_cons, List.reverse_append,
          List.append_assoc]
      · rw [Utf8.encode_append, absorb_append, hc]
        exact hcs

theorem spells_escape (c : Char) : Spells (Json.escape c) c := by
  unfold Json.escape
  split
  next hc => exact .short (b := 0x22) rfl (by rw [hc]; rfl)
  split
  next hc => exact .short (b := 0x5C) rfl (by rw [hc]; rfl)
  split
  next hc => exact .short (b := 0x0A) rfl (by rw [hc]; rfl)
  split
  next hc => exact .short (b := 0x0D) rfl (by rw [hc]; rfl)
  split
  next hc => exact .short (b := 0x09) rfl (by rw [hc]; rfl)
  split
  next hc => exact .short (b := 0x08) rfl hc
  split
  next hc => exact .short (b := 0x0C) rfl hc
  split
  next hc =>
    exact .number (Hex.length_digits 4 _) (Hex.number?_digits (Nat.lt_of_lt_of_le hc (by decide)))
  next hquote hslash _ _ _ _ _ hcontrol => exact .raw (Nat.not_lt.1 hcontrol) hquote hslash

theorem spellsText_flatMap_escape (cs : List Char) : SpellsText (cs.flatMap Json.escape) cs := by
  induction cs with
  | nil => rfl
  | cons c cs ih => exact ⟨_, _, spells_escape c, ih, List.flatMap_cons⟩

end Quoted

def Quotes (s : String) (cs : List Char) : Prop :=
  ∃ ps, Quoted.SpellsText ps s.toList ∧ cs = '"' :: ps ++ ['"']

theorem quotes_quote (s : String) : Quotes s (quote s.toList) :=
  ⟨_, Quoted.spellsText_flatMap_escape s.toList, rfl⟩

end CourierDispatch.Json
