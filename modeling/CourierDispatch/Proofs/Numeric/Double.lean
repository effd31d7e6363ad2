import CourierDispatch.Numeric.Double
import Mathlib.Algebra.Group.Nat.Defs

/-!
# Finite doubles

A magnitude of at most `2 ^ 2097` units is that of a finite double, and rounding does not carry a
magnitude over a power of two. So the product of two doubles is finite if both are small enough.

A finite double is the double of its sign and its magnitude. So it is what a binary32 number of the same
sign and magnitude is read as.
-/

namespace CourierDispatch.Double

variable {negative : Bool} {e f u n d i j : Nat} {x y : Double}

theorem toNat_bits_pack (he : e < 2048) (hf : f < 1 <<< 52) :
    (pack negative e f).bits.toNat = (if negative then 1 <<< 63 else 0) + e <<< 52 + f := by
  simp only [Nat.reduceShiftLeft] at hf
  have hlt : (if negative then 1 <<< 63 else 0) + e <<< 52 + f < 18446744073709551616 := by
    rw [Nat.shiftLeft_eq]
    simp only [Nat.reducePow]
    split <;> omega
  rw [pack]
  exact Nat.mod_eq_of_lt hlt

theorem exponent_pack (he : e < 2048) (hf : f < 1 <<< 52) : (pack negative e f).exponent = e := by
  rw [exponent, toNat_bits_pack he hf, Nat.shiftRight_eq_div_pow, Nat.shiftLeft_eq]
  simp only [Nat.reduceShiftLeft, Nat.reducePow] at hf ⊢
  split <;> omega

theorem fraction_pack (he : e < 2048) (hf : f < 1 <<< 52) : (pack negative e f).fraction = f := by
  rw [fraction, toNat_bits_pack he hf, Nat.shiftLeft_eq]
  simp only [Nat.reduceShiftLeft, Nat.reducePow] at hf ⊢
  split <;> omega

structure AtMost (u : Nat) (x : Double) : Prop where
  finite : x.isFinite = true
  units_le : x.units ≤ u

theorem atMost_ofUnits (h : u ≤ 2 ^ j) (hj : j ≤ 2097) : (ofUnits negative u).AtMost u := by
  unfold ofUnits
  split
  next hsmall =>
    have hexponent : (pack negative 0 u).exponent = 0 := exponent_pack (by decide) hsmall
    have hunits : (pack negative 0 u).units = u := by
      rw [units, if_pos hexponent, fraction_pack (by decide) hsmall]
    exact ⟨by rw [isFinite, hexponent]; rfl, Nat.le_of_eq hunits⟩
  next hlarge =>
    have hle : 2 ^ 52 ≤ u := Nat.le_of_not_lt hlarge
    have hne : u ≠ 0 := by omega
    have hlog : 52 ≤ u.log2 := (Nat.le_log2 hne).2 hle
    have hlog' : u.log2 < j + 1 :=
      (Nat.log2_lt hne).2 (Nat.lt_of_le_of_lt h (Nat.pow_lt_pow_right (by decide) (Nat.lt_succ_self j)))
    -- the leading bit of the magnitude is the one that is not stored
    obtain ⟨k, hk⟩ : ∃ k, u.log2 = 52 + k := Nat.exists_eq_add_of_le hlog
    have hspare : spareBits u = k := by rw [spareBits, hk, Nat.add_sub_cancel_left]
    have hlow : 2 ^ 52 ≤ u >>> k := by
      rw [Nat.shiftRight_eq_div_pow, Nat.le_div_iff_mul_le (Nat.two_pow_pos k), ← Nat.pow_add, ← hk]
      exact Nat.log2_self_le hne
    have hhigh : u >>> k < 2 ^ 53 := by
      rw [Nat.shiftRight_eq_div_pow, Nat.div_lt_iff_lt_mul (Nat.two_pow_pos k), ← Nat.pow_add]
      have hself := Nat.lt_log2_self (n := u)
      rwa [hk, Nat.add_right_comm] at hself
    have hfraction : u >>> k - 1 <<< 52 < 1 <<< 52 := by
      simp only [Nat.reduceShiftLeft, Nat.reducePow] at hlow hhigh ⊢
      omega
    have hfits : k + 1 < 2048 := by omega
    have hexponent : (pack negative (k + 1) (u >>> k - 1 <<< 52)).exponent = k + 1 :=
      exponent_pack hfits hfraction
    simp only [hspare]
    rw [if_neg (by omega)]
    refine ⟨?_, ?_⟩
    · rw [isFinite, hexponent, bne_iff_ne]
      omega
    · have hwhole : 1 <<< 52 + (u >>> k - 1 <<< 52) = u >>> k := Nat.add_sub_cancel' hlow
      rw [units, hexponent, if_neg (Nat.succ_ne_zero k), fraction_pack hfits hfraction, hwhole,
        Nat.add_sub_cancel, Nat.shiftLeft_eq, Nat.shiftRight_eq_div_pow]
      exact Nat.div_mul_le_self u (2 ^ k)

theorem divNearest_le (n d : Nat) : divNearest n d ≤ n / d + 1 := by
  unfold divNearest
  simp only
  split
  · omega
  split
  · omega
  · have hparity : n / d % 2 < 2 := Nat.mod_lt _ (by decide)
    omega

/-- A quotient below a power of two is rounded to no more than this power. -/
theorem atMost_round (h : n / d < 2 ^ j) (hj : j ≤ 2097) : (round negative n d).AtMost (2 ^ j) := by
  have hspare : spareBits (n / d) ≤ j := by
    by_cases hzero : n / d = 0
    · rw [hzero]
      exact Nat.zero_le j
    · have hlog := (Nat.log2_lt hzero).2 h
      rw [spareBits]
      omega
  obtain ⟨i, hi⟩ := Nat.exists_eq_add_of_le hspare
  have hle : divNearest n (d <<< spareBits (n / d)) <<< spareBits (n / d) ≤ 2 ^ j := by
    have hquotient : n / (d <<< spareBits (n / d)) < 2 ^ i := by
      rw [Nat.shiftLeft_eq, ← Nat.div_div_eq_div_mul, Nat.div_lt_iff_lt_mul (Nat.two_pow_pos _),
        ← Nat.pow_add, Nat.add_comm, ← hi]
      exact h
    have hnearest := divNearest_le n (d <<< spareBits (n / d))
    rw [Nat.shiftLeft_eq _ (spareBits (n / d))]
    calc _ ≤ 2 ^ i * 2 ^ spareBits (n / d) := Nat.mul_le_mul_right _ (by omega)
      _ = 2 ^ j := by rw [← Nat.pow_add, Nat.add_comm, ← hi]
  have hunits : (ofUnits negative (divNearest n (d <<< spareBits (n / d)) <<<
      spareBits (n / d))).AtMost _ := atMost_ofUnits hle hj
  exact ⟨hunits.finite, Nat.le_trans hunits.units_le hle⟩

theorem two_pow_add_units (i : Nat) : 2 ^ (i + 1074) = 2 ^ i * unitsPerOne := by
  rw [Nat.pow_add, unitsPerOne, Nat.one_shiftLeft]

theorem unitsPerOne_pos : 0 < unitsPerOne := by decide +kernel

theorem atMost_ofNat (h : n < 2 ^ j) (hj : j + 1074 ≤ 2097) :
    (ofNat n).AtMost (2 ^ j * unitsPerOne) := by
  rw [← two_pow_add_units j]
  refine atMost_round ?_ hj
  rw [Nat.div_one, two_pow_add_units j]
  exact Nat.mul_lt_mul_of_pos_right h unitsPerOne_pos

theorem mul_of_finite (hx : x.isFinite = true) (hy : y.isFinite = true) :
    x.mul y = round (x.isNegative != y.isNegative) (x.units * y.units) unitsPerOne := by
  have hx' : (x.exponent == 2047) = false := by simpa [isFinite] using hx
  have hy' : (y.exponent == 2047) = false := by simpa [isFinite] using hy
  simp [mul, isNaN, isInfinite, hx', hy']

theorem isFinite_mul (hx : x.AtMost (2 ^ i * unitsPerOne)) (hy : y.AtMost (2 ^ j * unitsPerOne))
    (hj : i + j + 1074 < 2097) : (x.mul y).isFinite = true := by
  rw [mul_of_finite hx.finite hy.finite]
  refine (atMost_round (j := i + j + 1074 + 1) ?_ hj).finite
  have hproduct : x.units * y.units ≤ 2 ^ (i + j + 1074) * unitsPerOne := by
    have hboth := Nat.mul_le_mul hx.units_le hy.units_le
    rwa [Nat.mul_mul_mul_comm, ← Nat.pow_add, ← Nat.mul_assoc, ← two_pow_add_units (i + j)] at hboth
  rw [Nat.div_lt_iff_lt_mul unitsPerOne_pos]
  refine Nat.lt_of_le_of_lt hproduct (Nat.mul_lt_mul_of_pos_right ?_ unitsPerOne_pos)
  exact Nat.pow_lt_pow_right (by decide) (Nat.lt_succ_self _)

theorem isFinite_mul_of_units_eq_zero (hx : x.isFinite = true) (hzero : x.units = 0)
    (hy : y.isFinite = true) : (x.mul y).isFinite = true := by
  rw [mul_of_finite hx hy, hzero, Nat.zero_mul]
  refine (atMost_round (j := 0) ?_ (by decide)).finite
  rw [Nat.zero_div]
  decide

/-! The fields of a double make it up, and so do its sign and its magnitude. -/

theorem fraction_lt (x : Double) : x.fraction < 1 <<< 52 := Nat.mod_lt _ (by decide)

theorem pack_fields (x : Double) : pack x.isNegative x.exponent x.fraction = x := by
  have hbits : (if x.isNegative then 1 <<< 63 else 0) + x.exponent <<< 52 + x.fraction =
      x.bits.toNat := by
    have hlt := x.bits.toNat_lt
    simp only [isNegative, exponent, fraction, Nat.shiftRight_eq_div_pow, Nat.shiftLeft_eq,
      Nat.reducePow, decide_eq_true_eq] at hlt ⊢
    split <;> omega
  rw [pack, hbits]
  simp

/-- The significand of a double is all that its magnitude leaves room for. -/
theorem spareBits_shiftLeft {m : Nat} (hlow : 2 ^ 52 ≤ m) (hhigh : m < 2 ^ 53) (k : Nat) :
    spareBits (m <<< k) = k := by
  have hlow : 2 ^ (52 + k) ≤ m <<< k := by
    rw [Nat.shiftLeft_eq, Nat.pow_add]
    exact Nat.mul_le_mul_right _ hlow
  have hhigh : m <<< k < 2 ^ (52 + k + 1) := by
    rw [Nat.shiftLeft_eq, Nat.add_right_comm, Nat.pow_add]
    exact Nat.mul_lt_mul_of_pos_right hhigh (Nat.two_pow_pos k)
  have hne : m <<< k ≠ 0 := Nat.ne_of_gt (Nat.lt_of_lt_of_le (Nat.two_pow_pos _) hlow)
  rw [spareBits, (Nat.log2_eq_iff hne).2 ⟨hlow, hhigh⟩, Nat.add_sub_cancel_left]

theorem ofUnits_units (h : x.isFinite = true) : ofUnits x.isNegative x.units = x := by
  have hself := pack_fields x
  have hf := x.fraction_lt
  have he : x.exponent < 2047 := by
    have hlt : x.exponent < 2048 := Nat.mod_lt _ (by decide)
    have hne : x.exponent ≠ 2047 := by simpa [isFinite] using h
    omega
  by_cases hzero : x.exponent = 0
  · rw [units, if_pos hzero, ofUnits, if_pos hf]
    rwa [hzero] at hself
  · obtain ⟨k, hk⟩ := Nat.exists_eq_succ_of_ne_zero hzero
    have hlow : 2 ^ 52 ≤ 1 <<< 52 + x.fraction := Nat.le_add_right _ _
    have hhigh : 1 <<< 52 + x.fraction < 2 ^ 53 := by
      simp only [Nat.reduceShiftLeft, Nat.reducePow] at hf ⊢
      omega
    have hlarge : ¬ (1 <<< 52 + x.fraction) <<< k < 1 <<< 52 :=
      Nat.not_lt.2 (Nat.le_trans hlow Nat.le_shiftLeft)
    rw [units, if_neg hzero, hk, Nat.succ_sub_one, ofUnits, if_neg hlarge]
    simp only [spareBits_shiftLeft hlow hhigh]
    rw [if_neg (by omega), Nat.shiftLeft_shiftRight, Nat.add_sub_cancel_left]
    rwa [hk] at hself

/-- The magnitude of a finite binary32 number, by its bit pattern, in units of a double. Its own units
are `2 ^ -149`. -/
def singleUnits (bits : Nat) : Nat :=
  let exponent := bits >>> 23 % (1 <<< 8)
  let fraction := bits % (1 <<< 23)
  (if exponent = 0 then fraction else (1 <<< 23 + fraction) <<< (exponent - 1)) <<< 925

/-- The bit pattern is that of a finite binary32 number with the sign and the magnitude of a double. -/
structure IsSingle (x : Double) (bits : Nat) : Prop where
  lt : bits < 1 <<< 32
  finite : bits >>> 23 % (1 <<< 8) ≠ 255
  isNegative : x.isNegative = decide (1 <<< 31 ≤ bits)
  units : x.units = singleUnits bits

theorem ofSingle_of_isSingle {bits : Nat} (h : x.isFinite = true) (hs : x.IsSingle bits) :
    ofSingle bits = x := by
  rw [← ofUnits_units h, hs.isNegative, hs.units]
  unfold ofSingle singleUnits
  simp only [if_neg hs.finite]
  by_cases hexponent : bits >>> 23 % (1 <<< 8) = 0
  · simp only [if_pos hexponent]
  · simp only [if_neg hexponent]

end CourierDispatch.Double
