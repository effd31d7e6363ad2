import CourierDispatch.Envelope.Codec
import CourierDispatch.Proofs.Json.Numeral
import CourierDispatch.Proofs.Text.Utf8

/-!
# JSON text on one line

Whatever a value holds, no control character is written into its text: in quoted text they are escaped,
and nowhere else do any occur. So no byte of a JSON text is below that of a blank, and an envelope in
JSON, which begins with a brace, is a line of its own.
-/

namespace CourierDispatch.Json

def Visible (cs : List Char) : Prop := ∀ c ∈ cs, 32 ≤ c.toNat

instance (cs : List Char) : Decidable (Visible cs) := List.decidableBAll _ _

theorem visible_cons {c : Char} {cs : List Char} : Visible (c :: cs) ↔ 32 ≤ c.toNat ∧ Visible cs :=
  List.forall_mem_cons

theorem visible_append {cs ds : List Char} : Visible (cs ++ ds) ↔ Visible cs ∧ Visible ds :=
  List.forall_mem_append

theorem visible_replicate (n : Nat) {c : Char} (h : 32 ≤ c.toNat) :
    Visible (List.replicate n c) := by
  intro d hd
  rw [List.eq_of_mem_replicate hd]
  exact h

theorem Visible.subset {cs ds : List Char} (h : Visible ds) (hcs : cs ⊆ ds) : Visible cs :=
  fun c hc => h c (hcs hc)

/-! Numbers. -/

theorem visible_digitsOf (n : Nat) : Visible (Decimal.digitsOf n) := by
  intro c hc
  have hdigit := Numeral.isDigit_of_mem_digitsOf hc
  simp only [Char.isDigit, Bool.and_eq_true, decide_eq_true_eq] at hdigit
  have hle : '0'.toNat ≤ c.toNat := hdigit.1
  exact Nat.le_trans (by decide) hle

theorem visible_positionalText {ds : List Char} (h : Visible ds) (exponent : Int) :
    Visible (Decimal.positionalText ds exponent) := by
  have hzeros (n : Nat) : Visible (List.replicate n '0') := visible_replicate n (by decide)
  unfold Decimal.positionalText
  split
  · exact visible_append.2 ⟨visible_append.2 ⟨h, hzeros _⟩, by decide⟩
  dsimp only
  split
  · exact visible_append.2 ⟨h.subset (List.take_subset _ _),
      visible_cons.2 ⟨by decide, h.subset (List.drop_subset _ _)⟩⟩
  · exact visible_append.2 ⟨visible_append.2 ⟨by decide, hzeros _⟩, h⟩

theorem visible_scientificText {ds : List Char} (h : Visible ds) (lead : Int) :
    Visible (Decimal.scientificText ds lead) := by
  have hexponent : Visible ['e', if lead < 0 then '-' else '+'] := by split <;> decide
  refine visible_append.2 ⟨visible_append.2 ⟨?_, hexponent⟩, visible_digitsOf _⟩
  split
  next d r rs =>
    obtain ⟨hd, hrs⟩ := visible_cons.1 h
    exact visible_cons.2 ⟨hd, visible_cons.2 ⟨by decide, hrs⟩⟩
  next => exact h

theorem visible_decimal (layout : DecimalLayout) (d : Decimal) : Visible (d.text layout) := by
  unfold Decimal.text
  dsimp only
  split
  · exact visible_positionalText (visible_digitsOf _) _
  · exact visible_scientificText (visible_digitsOf _) _

theorem visible_double (layout : DecimalLayout) (x : Double) : Visible (x.text layout).toList := by
  have hsign : Visible (if x.isNegative then ['-'] else []) := by split <;> decide
  unfold Double.text
  dsimp only
  split
  · decide
  split
  · rw [String.toList_ofList]
    exact visible_append.2 ⟨hsign, by decide⟩
  · rw [String.toList_ofList]
    exact visible_append.2 ⟨hsign, visible_decimal layout _⟩

theorem visible_numberText (n : Number) : Visible (numberText n) := by
  cases n with
  | whole n =>
      rw [numberText, wholeText]
      split
      · exact visible_cons.2 ⟨by decide, visible_digitsOf _⟩
      · exact visible_digitsOf _
  | double x => exact visible_double layout x

/-! Quoted text. -/

theorem visible_hexDigits (width n : Nat) : Visible (Hex.digits width n) := by
  have hdigit : ∀ n < 16, 32 ≤ (Hex.digit n).toNat := by decide
  induction width generalizing n with
  | zero => exact fun c hc => by cases hc
  | succ width ih =>
      refine visible_append.2 ⟨ih (n / 16), visible_cons.2 ⟨?_, fun c hc => by cases hc⟩⟩
      exact hdigit _ (Nat.mod_lt _ (by decide))

theorem visible_escape (c : Char) : Visible (escape c) := by
  unfold escape
  -- seven characters have an escape of their own
  iterate 7
    split
    · decide
  split
  · exact visible_cons.2 ⟨by decide, visible_cons.2 ⟨by decide, visible_hexDigits 4 _⟩⟩
  next hcontrol => exact visible_cons.2 ⟨Nat.not_lt.1 hcontrol, fun d hd => by cases hd⟩

theorem visible_quote (cs : List Char) : Visible (quote cs) := by
  refine visible_append.2 ⟨visible_cons.2 ⟨by decide, ?_⟩, by decide⟩
  intro d hd
  obtain ⟨c, -, hc⟩ := List.mem_flatMap.1 hd
  exact visible_escape c d hc

/-! Values. -/

theorem visible_commaSeparated {ps : List (List Char)} (h : ∀ p ∈ ps, Visible p) :
    Visible (commaSeparated ps) := by
  induction ps with
  | nil => exact fun c hc => by cases hc
  | cons p ps ih =>
      obtain ⟨hp, hps⟩ := List.forall_mem_cons.1 h
      cases ps with
      | nil => exact hp
      | cons q ps => exact visible_append.2 ⟨hp, visible_cons.2 ⟨by decide, ih hps⟩⟩

mutual
theorem visible_text (v : Value) : Visible (text v) := by
  match v with
  | .null => decide
  | .bool true => decide
  | .bool false => decide
  | .number n => exact visible_numberText n
  | .string s => exact visible_quote s.toList
  | .array items =>
      exact visible_cons.2 ⟨by decide, visible_append.2
        ⟨visible_commaSeparated (visible_itemTexts items), by decide⟩⟩
  | .object members =>
      exact visible_cons.2 ⟨by decide, visible_append.2
        ⟨visible_commaSeparated (visible_memberTexts members), by decide⟩⟩

theorem visible_itemTexts (items : List Value) : ∀ p ∈ itemTexts items, Visible p := by
  match items with
  | [] => exact fun p hp => by cases hp
  | v :: rest => exact List.forall_mem_cons.2 ⟨visible_text v, visible_itemTexts rest⟩

theorem visible_memberTexts (members : List (String × Value)) :
    ∀ p ∈ memberTexts members, Visible p := by
  match members with
  | [] => exact fun p hp => by cases hp
  | (k, v) :: rest =>
      have hmember : Visible (quote k.toList ++ ':' :: text v) :=
        visible_append.2 ⟨visible_quote k.toList, visible_cons.2 ⟨by decide, visible_text v⟩⟩
      exact List.forall_mem_cons.2 ⟨hmember, visible_memberTexts rest⟩
end

theorem visible_jsonText (e : Envelope) : Visible e.jsonText := by
  have hmember (k : String) {cs : List Char} (hcs : Visible cs) :
      Visible (quote k.toList ++ ':' :: cs) :=
    visible_append.2 ⟨visible_quote _, visible_cons.2 ⟨by decide, hcs⟩⟩
  refine visible_cons.2 ⟨by decide, visible_append.2 ⟨visible_commaSeparated ?_, by decide⟩⟩
  simp only [List.forall_mem_cons]
  exact ⟨hmember "id" (visible_quote _), hmember "name" (visible_quote _),
    hmember "payload" (visible_text _), fun p hp => by cases hp⟩

theorem le_of_mem_encode {cs : List Char} (h : Visible cs) :
    ∀ b ∈ Utf8.encode cs, 32 ≤ b.toNat := by
  intro b hb
  obtain ⟨c, hc, hbc⟩ := List.mem_flatMap.1 hb
  have hvisible := h c hc
  by_cases hascii : c.toNat < 0x80
  · rw [Utf8.encodeChar_ascii hascii, List.mem_singleton] at hbc
    rw [hbc, Utf8.toNat_toUInt8 (by omega)]
    exact hvisible
  · exact Nat.le_trans (by decide) (Utf8.le_of_mem_encodeChar (Nat.not_lt.1 hascii) hbc)

end CourierDispatch.Json
