import CourierDispatch.Proofs.Json.NumeralPrefix

/-!
# The texts of numbers

A double is written with a point or with the mark of an exponent, and in front of it stand at most 16
digits. So whether it is a whole number or a double, the significand has room for all digits in front of
the point when a number is read back, and nothing but the sizes of its parts decides about a number that
was cut.
-/

namespace CourierDispatch.Json.Numeral

open Draft

theorem fitting_of_mem_digitsOf {n : Nat} : ∀ c ∈ Decimal.digitsOf n, Fitting c :=
  fun _ hc => .inr (.inl (isDigit_of_mem_digitsOf hc))

theorem fitting_of_mem_replicate {n : Nat} : ∀ c ∈ List.replicate n '0', Fitting c := by
  intro c hc
  rw [List.eq_of_mem_replicate hc]
  exact .inr (.inl (by decide))

/-- A text with a point or the mark of an exponent, which comes behind at most `k` characters. -/
structure Marked (k : Nat) (text : List Char) : Prop where
  fitting : ∀ c ∈ text, Fitting c
  mark : ∃ as m bs, text = as ++ m :: bs ∧ (m = '.' ∨ m = 'e') ∧ as.length ≤ k

theorem marked_positionalText {ds : List Char} (hds : ∀ c ∈ ds, Fitting c) {exponent : Int}
    (hlead : exponent + ds.length - 1 ≤ 15) : Marked 16 (Decimal.positionalText ds exponent) := by
  have hzero : Fitting '0' := .inr (.inl (by decide))
  have hpoint : Fitting '.' := .inr (.inr (.inr (.inl rfl)))
  unfold Decimal.positionalText
  split
  · refine ⟨?_, _, '.', ['0'], rfl, .inl rfl, ?_⟩
    · simp only [List.forall_mem_append, List.forall_mem_cons]
      exact ⟨⟨hds, fitting_of_mem_replicate⟩, hpoint, hzero, by simp⟩
    · rw [List.length_append, List.length_replicate]
      omega
  · simp only
    split
    · refine ⟨?_, _, '.', _, rfl, .inl rfl, ?_⟩
      · rw [List.forall_mem_append, List.forall_mem_cons]
        exact ⟨fun c hc => hds c (List.mem_of_mem_take hc), hpoint,
          fun c hc => hds c (List.mem_of_mem_drop hc)⟩
      · rw [List.length_take]
        omega
    · refine ⟨?_, ['0'], '.', _, rfl, .inl rfl, by simp⟩
      simp only [List.forall_mem_append, List.forall_mem_cons]
      exact ⟨⟨⟨hzero, hpoint, by simp⟩, fitting_of_mem_replicate⟩, hds⟩

theorem marked_scientificText {ds : List Char} (hds : ∀ c ∈ ds, Fitting c) (lead : Int) :
    Marked 16 (Decimal.scientificText ds lead) := by
  have hpoint : Fitting '.' := .inr (.inr (.inr (.inl rfl)))
  have hmark : Fitting 'e' := .inr (.inr (.inr (.inr rfl)))
  have hsign : Fitting (if lead < 0 then '-' else '+') := by
    split
    · exact .inl rfl
    · exact .inr (.inr (.inl rfl))
  have hexponent : ∀ c ∈ 'e' :: (if lead < 0 then '-' else '+') :: Decimal.digitsOf lead.natAbs,
      Fitting c :=
    List.forall_mem_cons.2 ⟨hmark, List.forall_mem_cons.2 ⟨hsign, fitting_of_mem_digitsOf⟩⟩
  unfold Decimal.scientificText
  match ds, hds with
  | d :: r :: rs, hds =>
      obtain ⟨hd, hrest⟩ := List.forall_mem_cons.1 hds
      have hmantissa : ∀ c ∈ d :: '.' :: r :: rs, Fitting c :=
        List.forall_mem_cons.2 ⟨hd, List.forall_mem_cons.2 ⟨hpoint, hrest⟩⟩
      simp only [List.append_assoc]
      exact ⟨List.forall_mem_append.2 ⟨hmantissa, hexponent⟩, [d], '.', _, rfl, .inl rfl, by simp⟩
  | [d], hds =>
      obtain ⟨hd, -⟩ := List.forall_mem_cons.1 hds
      exact ⟨List.forall_mem_cons.2 ⟨hd, hexponent⟩, [d], 'e', _, rfl, .inr rfl, by simp⟩
  | [], hds => exact ⟨hexponent, [], 'e', _, rfl, .inr rfl, by simp⟩

theorem marked_text (d : Decimal) : Marked 16 (d.text layout) := by
  unfold Decimal.text
  simp only
  split
  next hlead =>
    simp only [layout, Bool.and_eq_true, decide_eq_true_eq] at hlead
    exact marked_positionalText fitting_of_mem_digitsOf hlead.2
  next => exact marked_scientificText fitting_of_mem_digitsOf _

/-- The text of a finite double has a mark, in front of which are a sign and up to 16 digits. -/
theorem marked_double {x : Double} (hx : x.isFinite = true) : Marked 17 (x.text layout).toList := by
  have hexponent : (x.exponent == 2047) = false := by simpa [Double.isFinite] using hx
  have hnan : x.isNaN = false := by simp [Double.isNaN, hexponent]
  have hinfinite : x.isInfinite = false := by simp [Double.isInfinite, hexponent]
  obtain ⟨hfitting, as, m, bs, htext, hm, hlength⟩ := marked_text x.shortest
  simp only [Double.text, hnan, hinfinite, Bool.false_eq_true, if_false, String.toList_ofList]
  split
  · exact ⟨List.forall_mem_cons.2 ⟨.inl rfl, hfitting⟩, '-' :: as, m, bs,
      congrArg ('-' :: ·) htext, hm, Nat.succ_le_succ hlength⟩
  · exact ⟨hfitting, as, m, bs, htext, hm, Nat.le_succ_of_le hlength⟩

theorem fitting_numberText {n : Number} (hn : n.fits) : ∀ c ∈ numberText n, Fitting c := by
  cases n with
  | whole n =>
      obtain ⟨c, cs, -, -, htext, hall, -⟩ := exists_draft_wholeText hn
      rw [numberText, htext]
      exact hall
  | double x => exact (marked_double hn).fitting

theorem numberText_ne_nil {n : Number} (hn : n.fits) : numberText n ≠ [] := by
  cases n with
  | whole n =>
      obtain ⟨c, cs, -, -, htext, -⟩ := exists_draft_wholeText hn
      rw [numberText, htext]
      exact List.cons_ne_nil c cs
  | double x =>
      obtain ⟨-, as, m, bs, htext, -⟩ := marked_double hn
      rw [numberText, htext]
      simp

/-- The significand has room for all digits that stand in front of the point. -/
theorem slim_numberText {n : Number} (hn : n.fits) {c : Char} {cs : List Char} {d d' : Draft}
    (htext : numberText n = c :: cs) (hd : ofChar? c = some d) (h : d.absorbs cs = some d') :
    d'.numeral.Slim := by
  cases n with
  | whole n =>
      obtain ⟨x, xs, f, f', hwhole, -, hf, hf', -, htoken⟩ := exists_draft_wholeText hn
      obtain ⟨rfl, rfl⟩ := List.cons.inj (hwhole.symm.trans htext)
      obtain rfl := Option.some.inj (hf.symm.trans hd)
      obtain rfl := Option.some.inj (hf'.symm.trans h)
      unfold token? at htoken
      split at htoken
      next hempty =>
        rw [Slim, hempty]
      next =>
        simp only [Number.token] at htoken
        split at htoken <;> simp at htoken
  | double x =>
      obtain ⟨-, as, m, bs, hmark, hm, hlength⟩ := marked_double hn
      rw [numberText, hmark] at htext
      cases as with
      | nil =>
          obtain ⟨rfl, -⟩ := List.cons.inj htext
          rcases hm with rfl | rfl <;> cases hd
      | cons a as =>
          obtain ⟨rfl, rfl⟩ := List.cons.inj htext
          have hnone : digit? m = none := by rcases hm with rfl | rfl <;> rfl
          exact slim_of_mark hd hnone (Nat.le_of_succ_le (Nat.le_trans hlength (by decide))) h

end CourierDispatch.Json.Numeral
