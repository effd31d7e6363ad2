import CourierDispatch.Proofs.Json.Numeral
import CourierDispatch.Proofs.Numeric.Double

/-!
# Numerals that stop short

A prefix of a numeral that could be a numeral itself is one whose number is not too large, if this holds of
the whole numeral and the significand has room for the digits in front of the point. The fraction counts
fully in the prefix or it is cut, and an exponent that is cut has at least one digit less.
-/

namespace CourierDispatch.Json.Numeral

open Double

/-! Scaling. -/

theorem pow_ten_le {e e' : Nat} (h : e ≤ e') : Nat.pow 10 e ≤ Nat.pow 10 e' :=
  Nat.pow_le_pow_right (by decide) h

/-- A significand is scaled by up to 30 digits without getting too large. -/
theorem isSome_scale? {m : Nat} (hm : m < 1 <<< 64) {e : Int} (he : e ≤ 30) :
    (scale? m e).isSome = true := by
  cases e with
  | negSucc k => rfl
  | ofNat e =>
      have hle : e ≤ 30 := Int.ofNat_le.1 he
      have hpower : Nat.pow 10 e < 2 ^ 100 :=
        Nat.lt_of_le_of_lt (pow_ten_le hle) (by decide)
      have hfinite : ((Double.ofNat m).mul (powerOfTen e)).isFinite = true :=
        isFinite_mul (i := 64) (j := 100) (atMost_ofNat hm (by decide))
          (atMost_ofNat hpower (by decide)) (by decide)
      simp only [scale?]
      rw [if_pos (by omega), if_pos hfinite]
      rfl

theorem isFinite_powerOfTen {e : Nat} (he : e ≤ 308) : (powerOfTen e).isFinite = true := by
  obtain ⟨j, hj, hlast⟩ : ∃ j, j ≤ 1020 ∧ Nat.pow 10 307 < 2 ^ j :=
    ⟨1020, Nat.le_refl _, by decide +kernel⟩
  by_cases h : e = 308
  · subst h
    decide +kernel
  · exact (atMost_ofNat (Nat.lt_of_le_of_lt (pow_ten_le (by omega)) hlast) (by omega)).finite

theorem isSome_scale?_zero (e : Int) : (scale? 0 e).isSome = true := by
  cases e with
  | negSucc k => rfl
  | ofNat e =>
      by_cases hle : e ≤ 308
      · have hfinite : ((Double.ofNat 0).mul (powerOfTen e)).isFinite = true :=
          isFinite_mul_of_units_eq_zero (by decide +kernel) (by decide +kernel)
            (isFinite_powerOfTen hle)
        simp only [scale?]
        rw [if_pos hle, if_pos hfinite]
        rfl
      · rw [scale?, if_neg hle, if_pos rfl]
        rfl

theorem le_of_isSome_scale? {m : Nat} (hm : m ≠ 0) {e : Int} (h : (scale? m e).isSome = true) :
    e ≤ 308 := by
  cases e with
  | negSucc k => exact Int.le_trans (Int.le_of_lt (Int.negSucc_lt_zero k)) (by decide)
  | ofNat e =>
      by_contra hlt
      have hlarge : ¬ e ≤ 308 := fun hle => hlt (Int.ofNat_le.2 hle)
      simp only [scale?] at h
      rw [if_neg hlarge, if_neg hm] at h
      cases h

/-! What has been read. -/

theorem absorb_of_append {m : Nat} {ds : List Nat} (es : List Nat) (h : (absorb m (ds ++ es)).2 = []) :
    (absorb m ds).2 = [] := by
  induction ds generalizing m with
  | nil => rfl
  | cons d ds ih =>
      rw [List.cons_append, absorb] at h
      rw [absorb]
      split at h
      next hlt =>
        rw [if_pos hlt]
        exact ih h
      next => cases h

theorem absorb_of_length_le {m k : Nat} {ds : List Nat} (hds : ∀ d ∈ ds, d < 10)
    (hm : m < Nat.pow 10 k) (hlength : k + ds.length ≤ 19) : (absorb m ds).2 = [] := by
  induction ds generalizing m k with
  | nil => rfl
  | cons d ds ih =>
      obtain ⟨hd, hds⟩ := List.forall_mem_cons.1 hds
      have hnext : m * 10 + d < Nat.pow 10 (k + 1) := by
        change _ < Nat.pow 10 k * 10
        omega
      rw [List.length_cons] at hlength
      have hroom : m * 10 + d < 1 <<< 64 :=
        Nat.lt_of_lt_of_le hnext (Nat.le_trans (pow_ten_le (show k + 1 ≤ 19 by omega)) (by decide))
      rw [absorb, if_pos hroom]
      exact ih hds hnext (by omega)

/-- What decides about the double of a numeral whose significand has room for all digits in front of the
point. -/
theorem isSome_double? {n : Numeral} {m k : Nat} {rest : List Nat} (hwhole : absorb 0 n.whole = (m, []))
    (hfraction : absorb m (n.fraction.getD []) = (k, rest)) :
    n.double?.isSome =
      (scale? k (n.exponent.getD 0 - ((n.fraction.getD []).length - rest.length : Nat))).isSome := by
  rw [double?, hwhole]
  simp only [hfraction, Option.isSome_map, List.length_nil, Int.natCast_zero, Int.add_zero]

theorem isSome_token? {n : Numeral} (h : n.double?.isSome = true) : n.token?.isSome = true := by
  unfold token?
  split
  · split_ifs <;> rfl
  · rwa [Option.isSome_map]

theorem isSome_double?_of_token? {n : Numeral} {e : Int} (he : n.exponent = some e)
    (h : n.token?.isSome = true) : n.double?.isSome = true := by
  unfold token? at h
  split at h
  next hnone _ =>
    rw [he] at hnone
    cases hnone
  next => rwa [Option.isSome_map] at h

/-- The significand has room for the digits in front of the point. -/
def Slim (n : Numeral) : Prop := (absorb 0 n.whole).2 = []

theorem Slim.exists_absorb {n : Numeral} (h : n.Slim) :
    ∃ m k rest, absorb 0 n.whole = (m, []) ∧ absorb m (n.fraction.getD []) = (k, rest) ∧
      k < 1 <<< 64 := by
  obtain ⟨⟨m, extra⟩, hwhole⟩ : ∃ x, absorb 0 n.whole = x := ⟨_, rfl⟩
  obtain rfl : extra = [] := by
    rw [Slim, hwhole] at h
    exact h
  obtain ⟨⟨k, rest⟩, hfraction⟩ : ∃ x, absorb m (n.fraction.getD []) = x := ⟨_, rfl⟩
  exact ⟨m, k, rest, hwhole, hfraction, absorb_lt (absorb_lt (by decide) hwhole) hfraction⟩

theorem isSome_token?_of_le_zero {n : Numeral} (hn : n.Slim) (he : n.exponent.getD 0 ≤ 0) :
    n.token?.isSome = true := by
  obtain ⟨m, k, rest, hwhole, hfraction, hk⟩ := hn.exists_absorb
  refine isSome_token? ?_
  rw [isSome_double? hwhole hfraction]
  exact isSome_scale? hk (by omega)

/-- A numeral is not too large if it is not with an exponent ten times as large. -/
theorem isSome_token?_of_mul_ten_le {n : Numeral} (hn : n.Slim) {e e' : Nat}
    (he : n.exponent.getD 0 = e) (hle : e * 10 ≤ e')
    (h : (token? { n with exponent := some (e' : Int) }).isSome = true) : n.token?.isSome = true := by
  obtain ⟨m, k, rest, hwhole, hfraction, hk⟩ := hn.exists_absorb
  have hlarge := isSome_double?_of_token? rfl h
  rw [isSome_double? (n := { n with exponent := some (e' : Int) }) hwhole hfraction] at hlarge
  refine isSome_token? ?_
  rw [isSome_double? hwhole hfraction, he]
  by_cases hzero : k = 0
  · rw [hzero]
    exact isSome_scale?_zero _
  · have hle' := le_of_isSome_scale? hzero hlarge
    simp only [Option.getD_some] at hle'
    exact isSome_scale? hk (by omega)

namespace Draft

variable {d d' : Draft} {c : Char} {cs : List Char}

theorem isDigit_of_digit? {n : Nat} (h : digit? c = some n) : c.isDigit = true := by
  unfold digit? at h
  split at h
  next hdigit => exact hdigit
  next => cases h

theorem digit?_lt {n : Nat} (h : digit? c = some n) : n < 10 := by
  have hdigit := isDigit_of_digit? h
  rw [digit?, if_pos hdigit] at h
  cases h
  simp only [Char.isDigit, Bool.and_eq_true, decide_eq_true_eq] at hdigit
  have hle : c.toNat ≤ '9'.toNat := hdigit.2
  change c.toNat - 48 < 10
  change c.toNat ≤ 57 at hle
  omega

inductive Next (d : Draft) (c : Char) : Draft → Prop
  | first {n : Nat} (hc : digit? c = some n) (hpart : d.part = .minus) :
    Next d c { d with part := if n = 0 then .zero else .whole, whole := [n] }
  | whole {n : Nat} (hc : digit? c = some n) (hpart : d.part = .whole) :
    Next d c { d with whole := n :: d.whole }
  | fraction {n : Nat} (hc : digit? c = some n) (hpart : d.part = .point ∨ d.part = .fraction) :
    Next d c { d with part := .fraction, fraction := some (n :: d.fraction.getD []) }
  | exponent {n : Nat} (hc : digit? c = some n)
    (hpart : d.part = .mark ∨ d.part = .sign ∨ d.part = .exponent) :
    Next d c { d with part := .exponent, exponent := some (d.exponent.getD 0 * 10 + n) }
  | point (hc : c = '.') (hpart : d.part = .zero ∨ d.part = .whole) :
    Next d c { d with part := .point, fraction := some [] }
  | mark (hc : c = 'e' ∨ c = 'E') (hpart : d.part = .zero ∨ d.part = .whole ∨ d.part = .fraction) :
    Next d c { d with part := .mark, exponent := some 0 }
  | sign (hc : c = '+' ∨ c = '-') (lowers : Bool) (hpart : d.part = .mark) :
    Next d c { d with part := .sign, lowers }

theorem next_of_more? (h : d.more? c = some d') : d.Next c d' := by
  obtain ⟨part, negative, whole, fraction, lowers, exponent⟩ := d
  unfold more? step at h
  cases hc : digit? c with
  | some n =>
      rw [hc] at h
      cases part <;> simp only [Option.some.injEq, reduceCtorEq] at h <;> subst h
      case minus => exact .first hc rfl
      case whole => exact .whole hc rfl
      case point => exact .fraction hc (.inl rfl)
      case fraction => exact .fraction hc (.inr rfl)
      case mark => exact .exponent hc (.inl rfl)
      case sign => exact .exponent hc (.inr (.inl rfl))
      case exponent => exact .exponent hc (.inr (.inr rfl))
  | none =>
      rw [hc] at h
      unfold close at h
      cases part <;> simp only at h
      case zero =>
        split_ifs at h with hpoint hmark
        · cases h
          exact .point hpoint (.inl rfl)
        · cases h
          exact .mark hmark (.inl rfl)
      case whole =>
        split_ifs at h with hpoint hmark
        · cases h
          exact .point hpoint (.inr rfl)
        · cases h
          exact .mark hmark (.inr (.inl rfl))
      case fraction =>
        split_ifs at h with hmark
        cases h
        exact .mark hmark (.inr (.inr rfl))
      case mark =>
        split_ifs at h with hplus hminus
        · cases h
          exact .sign (.inl hplus) lowers rfl
        · cases h
          exact .sign (.inr hminus) true rfl
      all_goals cases h

theorem fitting_of_more? (h : d.more? c = some d') :
    Fitting c ∨ c = 'E' := by
  cases next_of_more? h with
  | first hc | whole hc | fraction hc | exponent hc =>
      exact .inl (.inr (.inl (isDigit_of_digit? hc)))
  | point hc => exact .inl (.inr (.inr (.inr (.inl hc))))
  | mark hc => exact hc.imp_left fun hc => .inr (.inr (.inr (.inr hc)))
  | sign hc =>
      rcases hc with hc | hc
      · exact .inl (.inr (.inr (.inl hc)))
      · exact .inl (.inl hc)

theorem absorbs_keeps {P : Draft → Prop} (hP : ∀ d c d', P d → d.Next c d' → P d') (hd : P d)
    (h : d.absorbs cs = some d') : P d' := by
  induction cs generalizing d with
  | nil =>
      cases h
      exact hd
  | cons c cs ih =>
      rw [absorbs_cons] at h
      obtain ⟨mid, hmid, hrest⟩ := Option.bind_eq_some_iff.1 h
      exact ih (hP d c mid hd (next_of_more? hmid)) hrest

/-- The numeral has not got to its point or to the mark of its exponent. -/
def Leading (d : Draft) : Prop := d.part = .minus ∨ d.part = .zero ∨ d.part = .whole

/-- The parts that have not been read yet are absent. -/
structure Consistent (d : Draft) : Prop where
  digits : ∀ n ∈ d.whole, n < 10
  fraction : d.Leading → d.fraction = none
  exponent : d.Leading ∨ d.part = .point ∨ d.part = .fraction → d.exponent = none

theorem Consistent.next (hd : d.Consistent) (h : d.Next c d') : d'.Consistent := by
  obtain ⟨hdigits, hfraction, hexponent⟩ := hd
  cases h with
  | @first n hc hpart =>
      have hfraction := hfraction (.inl hpart)
      have hexponent := hexponent (.inl (.inl hpart))
      refine ⟨?_, fun _ => hfraction, fun _ => hexponent⟩
      simpa using digit?_lt hc
  | whole hc hpart =>
      have hfraction := hfraction (.inr (.inr hpart))
      have hexponent := hexponent (.inl (.inr (.inr hpart)))
      exact ⟨List.forall_mem_cons.2 ⟨digit?_lt hc, hdigits⟩, fun _ => hfraction, fun _ => hexponent⟩
  | fraction hc hpart =>
      exact ⟨hdigits, by simp [Leading], fun _ => hexponent (.inr hpart)⟩
  | exponent hc hpart => exact ⟨hdigits, by simp [Leading], by simp [Leading]⟩
  | point _ hpart => exact ⟨hdigits, by simp [Leading], fun _ => hexponent (.inl (.inr hpart))⟩
  | mark _ hpart => exact ⟨hdigits, by simp [Leading], by simp [Leading]⟩
  | sign _ lowers hpart => exact ⟨hdigits, by simp [Leading], by simp [Leading]⟩

theorem Consistent.absorbs (hd : d.Consistent) (h : d.absorbs cs = some d') : d'.Consistent :=
  absorbs_keeps (fun _ _ _ hd hnext => hd.next hnext) hd h

theorem consistent_ofChar? (h : ofChar? c = some d) : d.Consistent := by
  unfold ofChar? at h
  split at h
  · cases h
    exact ⟨by simp, fun _ => rfl, fun _ => rfl⟩
  · obtain ⟨n, hn, rfl⟩ := Option.map_eq_some_iff.1 h
    exact ⟨by simpa using digit?_lt hn, fun _ => rfl, fun _ => rfl⟩

theorem whole_suffix (hpart : d.part ≠ .minus) (h : d.absorbs cs = some d') : d.whole <:+ d'.whole := by
  refine (absorbs_keeps (P := fun x => x.part ≠ .minus ∧ d.whole <:+ x.whole) ?_
    ⟨hpart, List.suffix_refl _⟩ h).2
  rintro x c x' ⟨hx, hsuffix⟩ hnext
  cases hnext with
  | first _ hminus => exact absurd hminus hx
  | whole _ hwhole => exact ⟨hx, hsuffix.trans (List.suffix_cons _ _)⟩
  | fraction | exponent | point | mark | sign => exact ⟨by simp, hsuffix⟩

theorem whole_of_not_leading (hpart : ¬ d.Leading) (h : d.absorbs cs = some d') :
    d'.whole = d.whole := by
  refine (absorbs_keeps (P := fun x => ¬ x.Leading ∧ x.whole = d.whole) ?_ ⟨hpart, rfl⟩ h).2
  rintro x c x' ⟨hx, hwhole⟩ hnext
  cases hnext with
  | first _ hminus => exact absurd (.inl hminus) hx
  | whole _ hlast => exact absurd (.inr (.inr hlast)) hx
  | fraction | exponent | point | mark | sign => exact ⟨by simp [Leading], hwhole⟩

/-- An exponent that is cut is at most a tenth of the whole one. -/
theorem exponent_of_absorbs (hpart : d.part = .exponent) (h : d.absorbs (c :: cs) = some d') :
    ∃ e, d.exponent.getD 0 * 10 ≤ e ∧ d' = { d with exponent := some e } := by
  obtain ⟨mid, hmid, hrest⟩ := Option.bind_eq_some_iff.1 h
  have hnext := next_of_more? hmid
  refine absorbs_keeps
    (P := fun x => ∃ e, d.exponent.getD 0 * 10 ≤ e ∧ x = { d with exponent := some e }) ?_ ?_ hrest
  · rintro x c x' ⟨e, he, rfl⟩ hnext
    cases hnext with
    | @exponent n _ _ => exact ⟨e * 10 + n, by omega, by rw [hpart]; rfl⟩
    | first _ h | whole _ h | fraction _ h | point _ h | mark _ h | sign _ _ h => simp [hpart] at h
  · cases hnext with
    | @exponent n _ _ => exact ⟨d.exponent.getD 0 * 10 + n, by omega, by rw [hpart]⟩
    | first _ h | whole _ h | fraction _ h | point _ h | mark _ h | sign _ _ h => simp [hpart] at h

theorem exponent_numeral (d : Draft) :
    d.numeral.exponent.getD 0 =
      if d.lowers then -((d.exponent.getD 0 : Nat) : Int) else (d.exponent.getD 0 : Nat) := by
  rw [numeral]
  cases d.exponent <;> simp

theorem slim_of_suffix (hd : d'.numeral.Slim) (h : d.whole <:+ d'.whole) : d.numeral.Slim := by
  obtain ⟨ds, hds⟩ := h
  refine absorb_of_append ds.reverse ?_
  change (absorb 0 (d.whole.reverse ++ ds.reverse)).2 = []
  rw [← List.reverse_append, hds]
  exact hd

theorem slim_of_length_le (hd : d.Consistent) (hlength : d.whole.length ≤ 19) : d.numeral.Slim := by
  refine absorb_of_length_le (k := 0) ?_ (by decide) (by simpa [numeral] using hlength)
  simpa [numeral] using hd.digits

/-- Unless an exponent raises it, the significand of a complete numeral is not scaled up. -/
theorem exponent_le_zero (hd : d.Consistent) (hcomplete : d.complete = true)
    (h : ¬ (d.part = .exponent ∧ d.lowers = false)) : d.numeral.exponent.getD 0 ≤ 0 := by
  rw [exponent_numeral]
  by_cases hlowers : d.lowers = true
  · rw [if_pos hlowers]
    omega
  · have hpart : d.part ≠ .exponent := fun hpart => h ⟨hpart, Bool.eq_false_iff.2 hlowers⟩
    have hnone : d.exponent = none := by
      refine hd.exponent ?_
      unfold complete at hcomplete
      unfold Leading
      split at hcomplete <;> simp_all
    rw [if_neg hlowers, hnone]
    rfl

/-- A complete numeral that goes on is not too large if what it goes on to is not. -/
theorem isSome_token?_of_absorbs (hd : d.Consistent) (hcomplete : d.complete = true)
    (h : d.absorbs cs = some d') (hslim : d'.numeral.Slim)
    (htoken : d'.numeral.token?.isSome = true) : d.numeral.token?.isSome = true := by
  have hminus : d.part ≠ .minus := by
    intro hminus
    simp [complete, hminus] at hcomplete
  have hslim := slim_of_suffix hslim (whole_suffix hminus h)
  by_cases hraises : d.part = .exponent ∧ d.lowers = false
  · obtain ⟨hpart, hraises⟩ := hraises
    cases cs with
    | nil =>
        cases h
        exact htoken
    | cons c cs =>
        obtain ⟨e, he, rfl⟩ := exponent_of_absorbs hpart h
        refine isSome_token?_of_mul_ten_le hslim ?_ he ?_
        · rw [exponent_numeral, hraises]
          rfl
        · simpa [numeral, hraises] using htoken
  · exact isSome_token?_of_le_zero hslim (exponent_le_zero hd hcomplete hraises)

theorem length_whole_le (h : d.absorbs cs = some d') :
    d'.whole.length ≤ max 1 d.whole.length + cs.length := by
  induction cs generalizing d with
  | nil =>
      cases h
      exact Nat.le_max_right _ _
  | cons c cs ih =>
      rw [absorbs_cons] at h
      obtain ⟨mid, hmid, hrest⟩ := Option.bind_eq_some_iff.1 h
      have hle := ih hrest
      have hnext : mid.whole.length ≤ max 1 d.whole.length + 1 := by
        cases next_of_more? hmid with
        | first | whole | fraction | exponent | point | mark | sign =>
          simp only [List.length_cons, List.length_nil]
          omega
      rw [List.length_cons]
      omega

theorem absorbs_append (d : Draft) (cs cs' : List Char) :
    d.absorbs (cs ++ cs') = (d.absorbs cs).bind fun d => d.absorbs cs' := by
  induction cs generalizing d with
  | nil => rfl
  | cons c cs ih =>
      rw [List.cons_append, absorbs_cons, absorbs_cons]
      cases d.more? c with
      | none => rfl
      | some d => exact ih d

theorem slim_of_mark {x m : Char} {as bs : List Char} (hd : ofChar? x = some d)
    (hm : digit? m = none) (hlength : as.length ≤ 18) (h : d.absorbs (as ++ m :: bs) = some d') :
    d'.numeral.Slim := by
  have hconsistent := (consistent_ofChar? hd).absorbs h
  rw [absorbs_append] at h
  obtain ⟨front, hfront, hbehind⟩ := Option.bind_eq_some_iff.1 h
  obtain ⟨mid, hmid, hrest⟩ := Option.bind_eq_some_iff.1 hbehind
  have hone : d.whole.length ≤ 1 := by
    unfold ofChar? at hd
    split at hd
    · cases hd
      exact Nat.zero_le 1
    · obtain ⟨n, -, rfl⟩ := Option.map_eq_some_iff.1 hd
      exact Nat.le_refl 1
  have hbound := length_whole_le hfront
  have hsame : ¬ mid.Leading ∧ mid.whole = front.whole := by
    cases next_of_more? hmid with
    | first hc | whole hc | fraction hc | exponent hc => simp [hm] at hc
    | point | mark | sign => exact ⟨by simp [Leading], rfl⟩
  refine slim_of_length_le hconsistent ?_
  rw [whole_of_not_leading hsame.1 hrest, hsame.2]
  omega

end Draft

end CourierDispatch.Json.Numeral
