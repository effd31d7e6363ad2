import CourierDispatch.Proofs.Numeric.Exact

/-!
# Powers of two

A power of two is a double, up to `2 ^ 1023`, and infinite from `2 ^ 1024` on. Products of powers of two
are powers of two, so raising two to a power by repeated squaring brings the power itself. A product
with a power of two that is finite is exact.
-/

namespace CourierDispatch.Double

variable {u v a b : Nat} {x y : Double}

def twoPow (e : Nat) : Double := ofUnits false (2 ^ e * unitsPerOne)

theorem isUnits_twoPow (h : a < 1024) : (twoPow a).IsUnits (2 ^ a * unitsPerOne) := by
  rw [twoPow, ← two_pow_add_units]
  refine isUnits_ofUnits ?_ (Nat.pow_lt_pow_right (by decide) (Nat.lt_succ_self _)) (by omega)
  have hfits := fits_mul_two_pow_of_le (m := 1) (by decide) (a + 1074)
  rwa [Nat.one_mul] at hfits

theorem twoPow_of_le (h : 1024 ≤ a) : twoPow a = infinity false := by
  rw [twoPow, ← two_pow_add_units]
  exact ofUnits_of_le (Nat.le_refl _) (by omega)

theorem isZero_of_isUnits (hx : x.IsUnits u) (hu : u ≠ 0) : x.isZero = false := by
  refine Bool.eq_false_iff.2 fun hzero => hu ?_
  obtain ⟨hexponent, hfraction⟩ := Bool.and_eq_true_iff.1 hzero
  rw [← hx.units, units, if_pos (beq_iff_eq.1 hexponent)]
  exact beq_iff_eq.1 hfraction

theorem exponent_of_isFinite (hx : x.isFinite = true) : (x.exponent == 2047) = false := by
  simpa [isFinite] using hx

theorem isFinite_mul_infinity (x : Double) : (x.mul (infinity false)).isFinite = false := by
  have hinfinite : (infinity false).isInfinite = true := by decide +kernel
  unfold mul
  dsimp only
  split
  next => decide +kernel
  next =>
    rw [hinfinite, Bool.or_true, if_pos rfl]
    split
    next => decide +kernel
    next => cases (x.isNegative != (infinity false).isNegative) <;> decide +kernel

theorem mul_infinity (hx : x.IsUnits u) (hu : u ≠ 0) :
    x.mul (infinity false) = infinity false ∧ (infinity false).mul x = infinity false := by
  have hexponent := exponent_of_isFinite hx.finite
  have hnan : (infinity false).isNaN = false := by decide +kernel
  have hinfinite : (infinity false).isInfinite = true := by decide +kernel
  have hzero : (infinity false).isZero = false := by decide +kernel
  have hnegative : (infinity false).isNegative = false := by decide +kernel
  simp [mul, isNaN.eq_def x, isInfinite.eq_def x, hexponent, hnan, hinfinite, hzero, hnegative,
    isZero_of_isUnits hx hu, hx.isNegative]

/-- A product with a power of two is exact. -/
theorem mul_twoPow (hx : x.IsUnits u) (hb : b < 1024) : x.mul (twoPow b) = ofUnits false (u * 2 ^ b) := by
  have hy := isUnits_twoPow hb
  rw [mul_of_finite hx.finite hy.finite, hx.units, hy.units, hx.isNegative, hy.isNegative,
    ← Nat.mul_assoc]
  have hfits : Fits u := hx.units ▸ x.fits_units
  exact round_mul (hfits.mul_two_pow b) unitsPerOne_pos

theorem twoPow_mul_twoPow (a b : Nat) : (twoPow a).mul (twoPow b) = twoPow (a + b) := by
  have hne (e : Nat) : 2 ^ e * unitsPerOne ≠ 0 :=
    Nat.ne_of_gt (Nat.mul_pos (Nat.two_pow_pos e) unitsPerOne_pos)
  rcases Nat.lt_or_ge a 1024 with ha | ha <;> rcases Nat.lt_or_ge b 1024 with hb | hb
  · rw [mul_twoPow (isUnits_twoPow ha) hb, twoPow, Nat.mul_right_comm, ← Nat.pow_add]
  · rw [twoPow_of_le hb, twoPow_of_le (Nat.le_add_left_of_le hb)]
    exact (mul_infinity (isUnits_twoPow ha) (hne a)).1
  · rw [twoPow_of_le ha, twoPow_of_le (Nat.le_add_right_of_le ha)]
    exact (mul_infinity (isUnits_twoPow hb) (hne b)).2
  · rw [twoPow_of_le ha, twoPow_of_le hb, twoPow_of_le (Nat.le_add_right_of_le ha)]
    decide +kernel

/-- Each square doubles the exponent of the base, and each bit of `n` that is set adds it to that of the
product so far. -/
theorem pow_go_twoPow (e n a : Nat) : pow.go (twoPow e) n (twoPow a) = twoPow (a + e * n) := by
  induction n using Nat.strongRecOn generalizing e a with
  | ind n ih =>
      have hbit : (if n % 2 = 1 then (twoPow a).mul (twoPow e) else twoPow a) =
          twoPow (a + e * (n % 2)) := by
        rcases Nat.mod_two_eq_zero_or_one n with hn | hn
        · rw [hn, if_neg (by decide), Nat.mul_zero, Nat.add_zero]
        · rw [hn, if_pos rfl, Nat.mul_one, twoPow_mul_twoPow]
      have hsplit := Nat.div_add_mod n 2
      rw [pow.go, hbit]
      split
      next hzero =>
        rw [hzero, Nat.mul_zero, Nat.zero_add] at hsplit
        rw [hsplit]
      next hne =>
        rw [twoPow_mul_twoPow, ih (n / 2) (by omega)]
        congr 1
        have hdouble : (e + e) * (n / 2) = e * (2 * (n / 2)) := by
          rw [← Nat.mul_assoc, Nat.mul_comm e 2, Nat.two_mul]
        rw [hdouble, Nat.add_assoc, ← Nat.mul_add, Nat.add_comm (n % 2), hsplit]

theorem twoPow_zero : twoPow 0 = ofNat 1 := by decide +kernel

theorem twoPow_one : twoPow 1 = ofNat 2 := by decide +kernel

theorem pow_two (n : Nat) : (ofNat 2).pow n = twoPow n := by
  rw [pow, ← twoPow_zero, ← twoPow_one, pow_go_twoPow, Nat.zero_add, Nat.one_mul]

end CourierDispatch.Double
