import CourierDispatch.Json.Printer
import CourierDispatch.Json.Numeral
import CourierDispatch.Proofs.Value.Offer

/-!
# Reading whole numbers

The digits of a whole number go through a `Numeral.Draft` character by character. As long as the number
fits into 64 bits the draft ends up with just this number. It may be followed by any character that is
no part of a numeral.
-/

namespace CourierDispatch.Json.Numeral

def value (c : Char) : Nat := c.toNat - '0'.toNat

theorem value_digitChar : ∀ d < 10, value (Nat.digitChar d) = d := by decide

theorem toNat_lt_of_isDigit {c : Char} (h : c.isDigit = true) : c.toNat < 0x80 := by
  simp only [Char.isDigit, Bool.and_eq_true, decide_eq_true_eq] at h
  have hle : c.toNat ≤ '9'.toNat := h.2
  exact Nat.lt_of_le_of_lt hle (by decide)

def Fitting (c : Char) : Prop := c = '-' ∨ c.isDigit = true ∨ c = '+' ∨ c = '.' ∨ c = 'e'

instance : DecidablePred Fitting := fun _ => inferInstanceAs (Decidable (_ ∨ _))

theorem Fitting.toNat_lt {c : Char} (h : Fitting c) : c.toNat < 0x80 := by
  rcases h with rfl | h | rfl | rfl | rfl
  · decide
  · exact toNat_lt_of_isDigit h
  all_goals decide

theorem digitsOf_of_le {n : Nat} (h : 10 ≤ n) :
    Decimal.digitsOf n = Decimal.digitsOf (n / 10) ++ [Nat.digitChar (n % 10)] :=
  Nat.toDigits_of_base_le (by decide) h

theorem digitsOf_of_lt {n : Nat} (h : n < 10) : Decimal.digitsOf n = [Nat.digitChar n] :=
  Nat.toDigits_of_lt_base h

theorem isDigit_of_mem_digitsOf {n : Nat} {c : Char} (h : c ∈ Decimal.digitsOf n) :
    c.isDigit = true :=
  Nat.isDigit_of_mem_toDigits (by decide) (by decide) h

theorem digitsOf_eq_cons (n : Nat) :
    ∃ c cs, Decimal.digitsOf n = c :: cs ∧ (value c = 0 → cs = []) := by
  induction n using Nat.strongRecOn with
  | ind n ih =>
      by_cases hn : n < 10
      · exact ⟨Nat.digitChar n, [], digitsOf_of_lt hn, fun _ => rfl⟩
      · obtain ⟨c, cs, hcs, hzero⟩ := ih (n / 10) (by omega)
        refine ⟨c, cs ++ [Nat.digitChar (n % 10)], ?_, ?_⟩
        · rw [digitsOf_of_le (by omega), hcs]
          rfl
        · intro hc
          -- the tenth of the number is not zero, so its first digit is none either
          exfalso
          have hcs' := hzero hc
          subst hcs'
          by_cases htens : n / 10 < 10
          · rw [digitsOf_of_lt htens] at hcs
            have heq : Nat.digitChar (n / 10) = c := (List.cons.inj hcs).1
            have hval := value_digitChar (n / 10) htens
            rw [heq, hc] at hval
            omega
          · have hlen := congrArg List.length (hcs.symm.trans (digitsOf_of_le (by omega)))
            have hpos : 0 < (Decimal.digitsOf (n / 10 / 10)).length := Nat.length_toDigits_pos
            rw [List.length_append, List.length_singleton, List.length_singleton] at hlen
            omega

/-- A significand never grows beyond 64 bits. -/
theorem absorb_lt {m k : Nat} {ds rest : List Nat} (hm : m < 1 <<< 64)
    (h : absorb m ds = (k, rest)) : k < 1 <<< 64 := by
  induction ds generalizing m with
  | nil =>
      cases h
      exact hm
  | cons d ds ih =>
      rw [absorb] at h
      split at h
      next hroom => exact ih hroom h
      next =>
        cases h
        exact hm

theorem absorb_append_of_eq {m k : Nat} {ds : List Nat} (es : List Nat)
    (h : absorb m ds = (k, [])) : absorb m (ds ++ es) = absorb k es := by
  induction ds generalizing m with
  | nil =>
      obtain ⟨rfl, -⟩ := Prod.mk.inj h
      rfl
  | cons d ds ih =>
      rw [absorb] at h
      rw [List.cons_append, absorb]
      split at h
      next hlt =>
        rw [if_pos hlt]
        exact ih h
      next => exact absurd (Prod.mk.inj h).2 (by simp)

theorem absorb_digitsOf {n : Nat} (h : n < 1 <<< 64) :
    absorb 0 ((Decimal.digitsOf n).map value) = (n, []) := by
  induction n using Nat.strongRecOn with
  | ind n ih =>
      by_cases hn : n < 10
      · rw [digitsOf_of_lt hn]
        simp only [List.map_cons, List.map_nil, value_digitChar n hn, absorb, Nat.zero_mul,
          Nat.zero_add]
        rw [if_pos h]
      · have hlt : n / 10 * 10 + n % 10 < 1 <<< 64 := by omega
        rw [digitsOf_of_le (by omega), List.map_append,
          absorb_append_of_eq _ (ih (n / 10) (by omega) (by omega))]
        simp only [List.map_cons, List.map_nil, value_digitChar (n % 10) (Nat.mod_lt _ (by decide)),
          absorb]
        rw [if_pos hlt]
        congr 1
        omega

namespace Draft

def more? (d : Draft) (c : Char) : Option Draft :=
  match d.step c with
  | .more d => some d
  | _ => none

def absorbs (d : Draft) (cs : List Char) : Option Draft := cs.foldlM more? d

theorem absorbs_nil (d : Draft) : d.absorbs [] = some d := rfl

theorem absorbs_cons (d : Draft) (c : Char) (cs : List Char) :
    d.absorbs (c :: cs) = (d.more? c).bind fun d => d.absorbs cs := rfl

def begun (negative : Bool) (n : Nat) : Draft :=
  { part := if n = 0 then .zero else .whole, negative, whole := [n] }

theorem digit?_of_isDigit {c : Char} (h : c.isDigit = true) : digit? c = some (value c) := by
  rw [digit?, if_pos h]
  rfl

theorem absorbs_whole (negative : Bool) (ns : List Nat) {cs : List Char}
    (h : ∀ c ∈ cs, c.isDigit = true) :
    absorbs { part := .whole, negative, whole := ns } cs =
      some { part := .whole, negative, whole := (cs.map value).reverse ++ ns } := by
  induction cs generalizing ns with
  | nil => rfl
  | cons c cs ih =>
      have hc : c.isDigit = true := h c List.mem_cons_self
      have hstep : more? { part := .whole, negative, whole := ns } c =
          some { part := .whole, negative, whole := value c :: ns } := by
        simp [more?, step, digit?_of_isDigit hc]
      have hcs := ih (value c :: ns) fun c' hc' => h c' (List.mem_cons_of_mem _ hc')
      rw [absorbs_cons, hstep]
      simpa using hcs

/-- The digits of a number lead to a draft of this number, which may end there. -/
theorem absorbs_digits (negative : Bool) {n : Nat} {c : Char} {cs : List Char}
    (hn : Decimal.digitsOf n = c :: cs) (hz : value c = 0 → cs = []) :
    ∃ d, (begun negative (value c)).absorbs cs = some d ∧ (d.part = .zero ∨ d.part = .whole) ∧
      d.numeral = ⟨negative, (Decimal.digitsOf n).map value, none, none⟩ := by
  by_cases hc : value c = 0
  · have hcs := hz hc
    subst hcs
    exact ⟨begun negative (value c), rfl, by simp [begun, hc], by simp [begun, numeral, hn]⟩
  · have hbegun : begun negative (value c) =
        { part := .whole, negative, whole := [value c] } := by simp [begun, hc]
    have hdigits : ∀ c' ∈ cs, c'.isDigit = true := fun c' hc' =>
      isDigit_of_mem_digitsOf (n := n) (hn ▸ List.mem_cons_of_mem _ hc')
    refine ⟨_, hbegun ▸ absorbs_whole negative [value c] hdigits, Or.inr rfl, ?_⟩
    simp [numeral, hn]

theorem exists_draft_wholeText {n : Int} (hn : (Number.whole n).fits) :
    ∃ c cs d d', wholeText n = c :: cs ∧ (∀ x ∈ c :: cs, Fitting x) ∧
      ofChar? c = some d ∧ d.absorbs cs = some d' ∧ (d'.part = .zero ∨ d'.part = .whole) ∧
      d'.numeral.token? = some (Number.whole n).token := by
  obtain ⟨c, cs, hdigits, hzero⟩ := digitsOf_eq_cons n.natAbs
  have hc : c.isDigit = true :=
    isDigit_of_mem_digitsOf (n := n.natAbs) (hdigits ▸ List.mem_cons_self)
  have hall : ∀ x ∈ c :: cs, Fitting x := fun x hx =>
    Or.inr (Or.inl (isDigit_of_mem_digitsOf (n := n.natAbs) (hdigits ▸ hx)))
  have hlow : -((1 <<< 63 : Nat) : Int) ≤ n := hn.1
  have hhigh : n < (1 <<< 64 : Nat) := hn.2
  have hlt : n.natAbs < 1 <<< 64 := by
    simp only [Nat.reduceShiftLeft] at hlow hhigh ⊢
    omega
  have habsorb := absorb_digitsOf hlt
  by_cases hneg : n < 0
  · obtain ⟨d', hd', hpart, hnumeral⟩ := absorbs_digits true hdigits hzero
    refine ⟨'-', c :: cs, { part := .minus, negative := true }, d', ?_, ?_, rfl, ?_, hpart, ?_⟩
    · rw [wholeText, if_pos hneg, hdigits]
    · intro x hx
      rcases List.mem_cons.1 hx with rfl | hx
      · exact Or.inl rfl
      · exact hall x hx
    · have hstep : more? { part := .minus, negative := true } c =
          some (begun true (value c)) := by
        simp [more?, step, digit?_of_isDigit hc, begun]
      rw [absorbs_cons, hstep]
      exact hd'
    · have hle : n.natAbs ≤ 1 <<< 63 := by
        simp only [Nat.reduceShiftLeft] at hlow ⊢
        omega
      have hpos : 0 < n.natAbs := by omega
      rw [hnumeral]
      simp only [token?, habsorb, Number.token, if_pos hneg]
      have habs : -(n.natAbs : Int) = n := by omega
      simp only [hpos, hle, habs]
      rfl
  · obtain ⟨d', hd', hpart, hnumeral⟩ := absorbs_digits false hdigits hzero
    refine ⟨c, cs, begun false (value c), d', ?_, hall, ?_, hd', hpart, ?_⟩
    · rw [wholeText, if_neg hneg, hdigits]
    · have hne : c ≠ '-' := by
        rintro rfl
        exact absurd hc (by decide)
      simp [ofChar?, hne, digit?_of_isDigit hc, begun]
    · rw [hnumeral]
      simp only [token?, habsorb, Number.token, if_neg hneg]
      simp
      omega

/-- A whole number ends in front of anything but a digit, a point or a mark of an exponent. -/
theorem step_over {d : Draft} (hd : d.part = .zero ∨ d.part = .whole) {c : Char}
    (hdigit : c.isDigit = false) (hpoint : c ≠ '.') (hmark : c ≠ 'e') (hmark' : c ≠ 'E') :
    d.step c = .over := by
  have hnone : digit? c = none := by simp [digit?, hdigit]
  rcases hd with hd | hd <;> simp [step, hnone, close, hd, hpoint, hmark, hmark']

end Draft

end CourierDispatch.Json.Numeral
