import CourierDispatch.Proofs.Numeric.Double

/-!
# Exact and nearly exact doubles

A magnitude fits into a double if its spare bits are clear. Such a magnitude stays what it is: rounding
it changes nothing, multiplying it by a power of two is exact, and it is infinite only if it is
`2 ^ 2098` units or more. Any other magnitude that is not too small is rounded by less than one part in
`2 ^ 53`.
-/

namespace CourierDispatch

/-- A quotient that is nearly a whole number is rounded to this number. -/
theorem divNearest_eq {n d q : Nat} (hlow : 2 * (q * d) < 2 * n + d) (hhigh : 2 * n < 2 * (q * d) + d) :
    divNearest n d = q := by
  have hdivision := Nat.div_add_mod n d
  unfold divNearest
  dsimp only
  rcases Nat.lt_or_ge n (q * d) with hlt | hge
  · -- the quotient is one less, and the rest is more than half of the divisor
    obtain ⟨p, rfl⟩ : ∃ p, q = p + 1 := by
      refine Nat.exists_eq_succ_of_ne_zero fun hzero => ?_
      rw [hzero, Nat.zero_mul] at hlt
      exact Nat.not_lt_zero n hlt
    have hsucc : (p + 1) * d = p * d + d := Nat.succ_mul p d
    have hp : n / d = p := Nat.div_eq_of_lt_le (by omega) hlt
    rw [hp, Nat.mul_comm] at hdivision
    rw [if_neg (by omega), if_pos (by omega), hp]
  · have hq : n / d = q := Nat.div_eq_of_lt_le hge (by rw [Nat.succ_mul]; omega)
    rw [hq, Nat.mul_comm] at hdivision
    rw [if_pos (by omega), hq]

theorem log2_mul_two_pow {u : Nat} (h : u ≠ 0) (n : Nat) : (u * 2 ^ n).log2 = u.log2 + n := by
  have hpos := Nat.two_pow_pos n
  refine (Nat.log2_eq_iff (Nat.mul_ne_zero h (Nat.ne_of_gt hpos))).2 ⟨?_, ?_⟩
  · rw [Nat.pow_add]
    exact Nat.mul_le_mul_right _ (Nat.log2_self_le h)
  · rw [Nat.add_right_comm, Nat.pow_add]
    exact Nat.mul_lt_mul_of_pos_right Nat.lt_log2_self hpos

namespace Double

variable {negative : Bool} {u n d k m e f j : Nat} {x y : Double}

theorem lt_two_pow_spareBits (u : Nat) : u < 2 ^ (spareBits u + 53) := by
  refine Nat.lt_of_lt_of_le Nat.lt_log2_self (Nat.pow_le_pow_right (by decide) ?_)
  unfold spareBits
  omega

theorem two_pow_spareBits_le (h : 2 ^ 52 ≤ u) : 2 ^ (spareBits u + 52) ≤ u := by
  have hne : u ≠ 0 := by omega
  have hlog := (Nat.le_log2 hne).2 h
  rw [spareBits, Nat.sub_add_cancel hlog]
  exact Nat.log2_self_le hne

def Fits (u : Nat) : Prop := 2 ^ spareBits u ∣ u

theorem fits_mul_two_pow_of_le (h : m ≤ 2 ^ 53) (k : Nat) : Fits (m * 2 ^ k) := by
  unfold Fits
  by_cases hzero : m = 0
  · rw [hzero, Nat.zero_mul]
    exact Nat.dvd_zero _
  rcases Nat.lt_or_eq_of_le h with hlt | rfl
  · have hm := (Nat.log2_lt hzero).2 hlt
    rw [spareBits, log2_mul_two_pow hzero]
    exact Nat.dvd_mul_left_of_dvd (Nat.pow_dvd_pow 2 (by omega)) m
  · rw [← Nat.pow_add, spareBits, Nat.log2_two_pow]
    exact Nat.pow_dvd_pow 2 (by omega)

theorem fits_mul_shiftLeft (h : m ≤ 2 ^ 53) (k : Nat) : Fits (m * 1 <<< k) := by
  rw [Nat.one_shiftLeft]
  exact fits_mul_two_pow_of_le h k

theorem fits_units (x : Double) : Fits x.units := by
  have hf := x.fraction_lt
  unfold units
  split
  · have hle : x.fraction ≤ 2 ^ 53 := Nat.le_of_lt (Nat.lt_trans hf (by decide))
    have hfits := fits_mul_two_pow_of_le hle 0
    rwa [Nat.pow_zero, Nat.mul_one] at hfits
  · rw [Nat.shiftLeft_eq]
    refine fits_mul_two_pow_of_le ?_ _
    have hsum := Nat.add_le_add_left (Nat.le_of_lt hf) (1 <<< 52)
    exact hsum

theorem Fits.mul_two_pow (h : Fits u) (n : Nat) : Fits (u * 2 ^ n) := by
  by_cases hzero : u = 0
  · rw [hzero, Nat.zero_mul]
    exact Nat.dvd_zero _
  · have hspare : spareBits (u * 2 ^ n) ≤ spareBits u + n := by
      rw [spareBits, log2_mul_two_pow hzero, spareBits]
      omega
    refine Nat.dvd_trans (Nat.pow_dvd_pow 2 hspare) ?_
    rw [Nat.pow_add]
    exact Nat.mul_dvd_mul_right h _

structure IsUnits (x : Double) (u : Nat) : Prop where
  finite : x.isFinite = true
  isNegative : x.isNegative = false
  units : x.units = u

theorem isNegative_pack (he : e < 2048) (hf : f < 1 <<< 52) :
    (pack negative e f).isNegative = negative := by
  rw [isNegative, toNat_bits_pack he hf, Nat.shiftLeft_eq]
  simp only [Nat.reduceShiftLeft, Nat.reducePow] at hf ⊢
  cases negative with
  | false =>
      rw [decide_eq_false_iff_not]
      simp only [Bool.false_eq_true, if_false]
      omega
  | true =>
      rw [decide_eq_true_iff]
      simp only [if_true]
      omega

theorem isUnits_pack_zero (h : u < 1 <<< 52) : (pack false 0 u).IsUnits u := by
  have hexponent : (pack false 0 u).exponent = 0 := exponent_pack (by decide) h
  refine ⟨?_, isNegative_pack (by decide) h, ?_⟩
  · rw [isFinite, hexponent]
    rfl
  · rw [units, if_pos hexponent, fraction_pack (by decide) h]

/-- The leading bit of a significand is the one that is not stored. -/
theorem isUnits_pack_succ (hlow : 2 ^ 52 ≤ m) (hhigh : m < 2 ^ 53) (hk : k < 2046) :
    (pack false (k + 1) (m - 1 <<< 52)).IsUnits (m * 2 ^ k) := by
  have hfraction : m - 1 <<< 52 < 1 <<< 52 := by
    simp only [Nat.reduceShiftLeft, Nat.reducePow] at hlow hhigh ⊢
    omega
  have he : k + 1 < 2048 := by omega
  have hexponent : (pack false (k + 1) (m - 1 <<< 52)).exponent = k + 1 :=
    exponent_pack he hfraction
  refine ⟨?_, isNegative_pack he hfraction, ?_⟩
  · rw [isFinite, hexponent, bne_iff_ne]
    omega
  · have hwhole : 1 <<< 52 + (m - 1 <<< 52) = m := Nat.add_sub_cancel' hlow
    rw [units, hexponent, if_neg (Nat.succ_ne_zero k), fraction_pack he hfraction, hwhole,
      Nat.add_sub_cancel, Nat.shiftLeft_eq]

theorem isUnits_ofUnits (h : Fits u) (hlt : u < 2 ^ j) (hj : j ≤ 2098) :
    (ofUnits false u).IsUnits u := by
  unfold ofUnits
  split
  next hsmall => exact isUnits_pack_zero hsmall
  next hlarge =>
    have hself := two_pow_spareBits_le (Nat.le_of_not_lt hlarge)
    have hself' := lt_two_pow_spareBits u
    have hfits : spareBits u < 2046 := by
      have := (Nat.pow_lt_pow_iff_right (by decide)).1 (Nat.lt_of_le_of_lt hself hlt)
      omega
    obtain ⟨m, hm⟩ := h
    generalize spareBits u = k at *
    have hpos := Nat.two_pow_pos k
    rw [hm, Nat.pow_add] at hself hself'
    have hlow : 2 ^ 52 ≤ m := Nat.le_of_mul_le_mul_left hself hpos
    have hhigh : m < 2 ^ 53 := Nat.lt_of_mul_lt_mul_left hself'
    have hshift : u >>> k = m := by
      rw [Nat.shiftRight_eq_div_pow, hm, Nat.mul_div_cancel_left _ hpos]
    dsimp only
    rw [if_neg (by omega), hshift, hm, Nat.mul_comm]
    exact isUnits_pack_succ hlow hhigh hfits

theorem ofUnits_of_le (h : 2 ^ j ≤ u) (hj : 2098 ≤ j) : ofUnits negative u = infinity negative := by
  have hspare : 2046 ≤ spareBits u := by
    have hself := Nat.lt_of_le_of_lt h (lt_two_pow_spareBits u)
    have := (Nat.pow_lt_pow_iff_right (by decide)).1 hself
    omega
  have hpow : 2 ^ 52 ≤ 2 ^ j := Nat.pow_le_pow_right (by decide) (by omega)
  have hlarge : ¬ u < 1 <<< 52 := Nat.not_lt.2 (Nat.le_trans hpow h)
  rw [ofUnits, if_neg hlarge]
  dsimp only
  rw [if_pos hspare]

theorem round_mul (h : Fits u) (hd : 0 < d) : round negative (u * d) d = ofUnits negative u := by
  obtain ⟨m, hm⟩ := h
  have hexact : u * d = m * (d <<< spareBits u) := by
    calc u * d = 2 ^ spareBits u * m * d := congrArg (· * d) hm
      _ = m * (d * 2 ^ spareBits u) := by rw [Nat.mul_comm _ m, Nat.mul_assoc, Nat.mul_comm _ d]
      _ = m * (d <<< spareBits u) := by rw [Nat.shiftLeft_eq]
  have hpos : 0 < d <<< spareBits u := by
    rw [Nat.shiftLeft_eq]
    exact Nat.mul_pos hd (Nat.two_pow_pos _)
  have hnearest : divNearest (u * d) (d <<< spareBits u) = m :=
    divNearest_eq (by omega) (by omega)
  unfold round
  dsimp only
  rw [Nat.mul_div_cancel _ hd, hnearest, Nat.shiftLeft_eq, Nat.mul_comm, ← hm]

/-- A whole number is exact, unless it is too large. -/
theorem isUnits_ofNat (h : n < 2 ^ 53) : (ofNat n).IsUnits (n * unitsPerOne) := by
  have hfits : Fits (n * unitsPerOne) := fits_mul_shiftLeft (Nat.le_of_lt h) 1074
  have hround : ofNat n = ofUnits false (n * unitsPerOne) := by
    rw [← round_mul hfits Nat.one_pos, Nat.mul_one]
    rfl
  have hlt : n * unitsPerOne < 2 ^ (53 + 1074) := by
    rw [two_pow_add_units]
    exact Nat.mul_lt_mul_of_pos_right h unitsPerOne_pos
  rw [hround]
  exact isUnits_ofUnits hfits hlt (by decide)

/-- A magnitude that is a quotient up to one part in `2 ^ 53`. -/
structure Near (w n d : Nat) : Prop where
  le : (2 ^ 53 - 1) * n ≤ 2 ^ 53 * (w * d)
  ge : 2 ^ 53 * (w * d) ≤ (2 ^ 53 + 1) * n

theorem Near.of_mul {w c : Nat} (h : Near w (n * c) (d * c)) (hc : 0 < c) : Near w n d where
  le := by
    refine Nat.le_of_mul_le_mul_right ?_ hc
    rw [Nat.mul_assoc, Nat.mul_assoc (2 ^ 53), Nat.mul_assoc w]
    exact h.le
  ge := by
    refine Nat.le_of_mul_le_mul_right ?_ hc
    rw [Nat.mul_assoc, Nat.mul_assoc (2 ^ 53 + 1), Nat.mul_assoc w]
    exact h.ge

theorem divNearest_mul_near (n d : Nat) (hd : 0 < d) :
    2 * n ≤ 2 * (divNearest n d * d) + d ∧ 2 * (divNearest n d * d) ≤ 2 * n + d := by
  have hdivision := Nat.div_add_mod n d
  have hrest := Nat.mod_lt n hd
  rw [Nat.mul_comm] at hdivision
  have hsucc : (n / d + 1) * d = n / d * d + d := Nat.succ_mul _ d
  unfold divNearest
  dsimp only
  split
  next => omega
  split
  next => omega
  next =>
    -- a half may go either way
    rcases Nat.mod_two_eq_zero_or_one (n / d) with hparity | hparity
    · rw [hparity, Nat.add_zero]
      omega
    · rw [hparity]
      omega

/-- A quotient is nearly its double, unless it is too small to be. -/
theorem exists_round (h : n = 0 ∨ 2 ^ 52 * d ≤ n) (hd : 0 < d) :
    ∃ w, round negative n d = ofUnits negative w ∧ Fits w ∧ Near w n d := by
  refine ⟨_, rfl, ?_⟩
  generalize hk : spareBits (n / d) = k
  have hpos : 0 < d * 2 ^ k := Nat.mul_pos hd (Nat.two_pow_pos k)
  rw [Nat.shiftLeft_eq, Nat.shiftLeft_eq]
  obtain ⟨hlow, hhigh⟩ := divNearest_mul_near n (d * 2 ^ k) hpos
  have hquotient : n / (d * 2 ^ k) < 2 ^ 53 := by
    rw [← Nat.div_div_eq_div_mul, Nat.div_lt_iff_lt_mul (Nat.two_pow_pos k), ← Nat.pow_add,
      Nat.add_comm, ← hk]
    exact lt_two_pow_spareBits _
  have hunit : n = 0 ∨ 2 ^ 52 * (d * 2 ^ k) ≤ n := by
    refine h.imp_right fun hle => ?_
    have hquotient := two_pow_spareBits_le ((Nat.le_div_iff_mul_le hd).2 hle)
    rw [hk, Nat.le_div_iff_mul_le hd, Nat.add_comm, Nat.pow_add] at hquotient
    rwa [Nat.mul_comm d, ← Nat.mul_assoc]
  generalize hv : divNearest n (d * 2 ^ k) = v at *
  have hv53 : v ≤ 2 ^ 53 := by
    have hle := divNearest_le n (d * 2 ^ k)
    omega
  have hwd : v * 2 ^ k * d = v * (d * 2 ^ k) := by rw [Nat.mul_assoc, Nat.mul_comm d]
  refine ⟨fits_mul_two_pow_of_le hv53 k, ?_⟩
  rcases hunit with hzero | hunit
  · have hv0 : v = 0 := by
      rw [← hv, hzero]
      exact divNearest_eq (by omega) (by omega)
    rw [hv0, hzero]
    exact ⟨by simp, by simp⟩
  · refine ⟨?_, ?_⟩
    · rw [hwd]
      omega
    · rw [hwd]
      omega

theorem mod_bits (x : Double) : x.bits.toNat % 1 <<< 63 = x.exponent * 2 ^ 52 + x.fraction := by
  rw [exponent, fraction, Nat.shiftRight_eq_div_pow]
  simp only [Nat.reduceShiftLeft, Nat.reducePow]
  omega

theorem units_lt (x : Double) : x.units < 2 ^ 52 * 2 ^ x.exponent := by
  have hf := x.fraction_lt
  unfold units
  split
  next hzero =>
    rw [hzero]
    exact hf
  next hne =>
    obtain ⟨e, he⟩ := Nat.exists_eq_succ_of_ne_zero hne
    have hpow : 2 ^ 52 * 2 ^ e.succ = 2 ^ 53 * 2 ^ e := by
      rw [← Nat.pow_add, ← Nat.pow_add]
      congr 1
      omega
    rw [he, Nat.succ_sub_one, Nat.shiftLeft_eq, hpow]
    refine Nat.mul_lt_mul_of_pos_right ?_ (Nat.two_pow_pos e)
    simp only [Nat.reduceShiftLeft, Nat.reducePow] at hf ⊢
    omega

theorem IsUnits.lt (hx : x.IsUnits u) (hj : 2098 ≤ j) : u < 2 ^ j := by
  have hexponent : x.exponent ≤ 2046 := by
    have hlt : x.exponent < 2048 := Nat.mod_lt _ (by decide)
    have hne : x.exponent ≠ 2047 := by simpa [isFinite] using hx.finite
    omega
  rw [← hx.units]
  refine Nat.lt_of_lt_of_le x.units_lt ?_
  rw [← Nat.pow_add]
  exact Nat.pow_le_pow_right (by decide) (by omega)

theorem units_lt_of_exponent_lt (h : x.exponent < y.exponent) : x.units < y.units := by
  have hne : y.exponent ≠ 0 := by omega
  obtain ⟨e, he⟩ := Nat.exists_eq_succ_of_ne_zero hne
  rw [units.eq_def y, if_neg hne, he, Nat.succ_sub_one, Nat.shiftLeft_eq]
  refine Nat.lt_of_lt_of_le x.units_lt (Nat.mul_le_mul (Nat.le_add_right _ _) ?_)
  exact Nat.pow_le_pow_right (by decide) (by omega)

theorem magnitudeLE_iff : x.magnitudeLE y = true ↔ x.units ≤ y.units := by
  have hx := x.fraction_lt
  have hy := y.fraction_lt
  rw [magnitudeLE, decide_eq_true_iff, mod_bits, mod_bits]
  simp only [Nat.reduceShiftLeft, Nat.reducePow] at hx hy ⊢
  rcases Nat.lt_trichotomy x.exponent y.exponent with hlt | heq | hgt
  · exact iff_of_true (by omega) (Nat.le_of_lt (units_lt_of_exponent_lt hlt))
  · have hunits : x.units ≤ y.units ↔ x.fraction ≤ y.fraction := by
      unfold units
      rw [heq]
      split
      next => rfl
      next =>
        rw [Nat.shiftLeft_eq (_ + x.fraction), Nat.shiftLeft_eq (_ + y.fraction),
          Nat.mul_le_mul_right_iff (Nat.two_pow_pos _), Nat.add_le_add_iff_left]
    rw [hunits, heq]
    omega
  · exact iff_of_false (by omega) (Nat.not_le.2 (units_lt_of_exponent_lt hgt))

end Double

end CourierDispatch
