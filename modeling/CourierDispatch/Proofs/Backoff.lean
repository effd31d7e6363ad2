import CourierDispatch.Backoff
import CourierDispatch.Proofs.Numeric.PowerOfTwo

/-!
# Delays

The delay of a backoff with the usual factor is computed in doubles of seconds. As long as all delays are
below a million seconds this brings the right number of nanoseconds: what rounding takes away or adds is
less than a quarter of a nanosecond, so it neither changes which of two delays is the longer one nor
moves a delay to another nanosecond. The exception is a delay that starts at zero. Its product with a
power of two that is infinite is no number, which is taken for one that is too large.
-/

namespace CourierDispatch.Backoff

open Double

/-- The delays that are computed exactly are below this many nanoseconds. -/
def horizon : Nat := 1000000 * second

/-- A magnitude that is nearly a number of nanoseconds. -/
structure NearNanos (u x : Nat) : Prop where
  le : (2 ^ 53 - 1) ^ 2 * (x * unitsPerOne) ≤ 2 ^ 106 * (u * second)
  ge : 2 ^ 106 * (u * second) ≤ (2 ^ 53 + 1) ^ 2 * (x * unitsPerOne)

namespace NearNanos

variable {u v x y : Nat}

theorem mul_two_pow (h : NearNanos u x) (n : Nat) : NearNanos (u * 2 ^ n) (x * 2 ^ n) where
  le := by
    rw [Nat.mul_right_comm x, Nat.mul_right_comm u, ← Nat.mul_assoc, ← Nat.mul_assoc (2 ^ 106)]
    exact Nat.mul_le_mul_right _ h.le
  ge := by
    rw [Nat.mul_right_comm x, Nat.mul_right_comm u, ← Nat.mul_assoc,
      ← Nat.mul_assoc ((2 ^ 53 + 1) ^ 2)]
    exact Nat.mul_le_mul_right _ h.ge

theorem lt (hu : NearNanos u x) (hv : NearNanos v y) (hxy : x < y) (hx : x < horizon) : u < v := by
  have hbound : x * unitsPerOne ≤ horizon * unitsPerOne := Nat.mul_le_mul_right _ (Nat.le_of_lt hx)
  have hstep : (x + 1) * unitsPerOne ≤ y * unitsPerOne := Nat.mul_le_mul_right _ hxy
  have hpos := unitsPerOne_pos
  have hle := hv.le
  have hge := hu.ge
  rw [Nat.succ_mul] at hstep
  unfold horizon second at *
  omega

theorem divNearest_eq (h : NearNanos u x) (hx : x < horizon) :
    divNearest (u * second) unitsPerOne = x := by
  have hbound : x * unitsPerOne ≤ horizon * unitsPerOne := Nat.mul_le_mul_right _ (Nat.le_of_lt hx)
  have hpos := unitsPerOne_pos
  have hle := h.le
  have hge := h.ge
  unfold horizon second at *
  refine CourierDispatch.divNearest_eq ?_ ?_
  · omega
  · omega

end NearNanos

theorem le_unitsPerOne : 2 ^ 100 ≤ unitsPerOne := by decide +kernel

/-- The fraction of a second that some nanoseconds are, as a double. -/
theorem exists_fraction {r : Nat} (h : r < second) :
    ∃ w, ((Double.ofNat r).div (Double.ofNat second)).IsUnits w ∧
      Near w (r * unitsPerOne) second := by
  have hr : (Double.ofNat r).IsUnits (r * unitsPerOne) :=
    isUnits_ofNat (Nat.lt_trans h (by decide))
  have hs : (Double.ofNat second).IsUnits (second * unitsPerOne) := isUnits_ofNat (by decide)
  have hU := le_unitsPerOne
  have hlarge : r * unitsPerOne * unitsPerOne = 0 ∨
      2 ^ 52 * (second * unitsPerOne) ≤ r * unitsPerOne * unitsPerOne := by
    rcases Nat.eq_zero_or_pos r with rfl | hpos
    · exact .inl (by rw [Nat.zero_mul, Nat.zero_mul])
    · right
      rw [← Nat.mul_assoc]
      refine Nat.mul_le_mul_right _ ?_
      have hle : 1 * unitsPerOne ≤ r * unitsPerOne := Nat.mul_le_mul_right _ hpos
      unfold second
      omega
  obtain ⟨w, hw, hfits, hnear⟩ := exists_round hlarge (Nat.mul_pos (by decide) unitsPerOne_pos)
  have hnear : Near w (r * unitsPerOne) second := hnear.of_mul unitsPerOne_pos
  refine ⟨w, ?_, hnear⟩
  rw [div, hr.units, hs.units, hr.isNegative, hs.isNegative]
  rw [hw]
  refine isUnits_ofUnits (j := 1 + 1074) hfits ?_ (by decide)
  rw [two_pow_add_units]
  have hle : r * unitsPerOne ≤ second * unitsPerOne := Nat.mul_le_mul_right _ (Nat.le_of_lt h)
  have hge := hnear.ge
  unfold second at *
  omega

theorem eq_zero_or_le_of_near {q r w : Nat} (h : Near w (r * unitsPerOne) second) :
    q * unitsPerOne + w = 0 ∨ 2 ^ 52 * 1 ≤ q * unitsPerOne + w := by
  obtain ⟨hlow, hhigh⟩ := h
  have hU := le_unitsPerOne
  unfold second at hlow hhigh
  rcases Nat.eq_zero_or_pos q with rfl | hpos
  · rcases Nat.eq_zero_or_pos r with rfl | hpos
    · omega
    · have hone : 1 * unitsPerOne ≤ r * unitsPerOne := Nat.mul_le_mul_right _ hpos
      omega
  · have hone : 1 * unitsPerOne ≤ q * unitsPerOne := Nat.mul_le_mul_right _ hpos
    omega

theorem exists_seconds {x : Nat} (h : x < horizon) :
    ∃ u, (seconds x).IsUnits u ∧ NearNanos u x := by
  have hq : x / second < 1000000 := (Nat.div_lt_iff_lt_mul (by decide)).2 h
  have hr : x % second < second := Nat.mod_lt x (by decide)
  have hwhole : (Double.ofNat (x / second)).IsUnits (x / second * unitsPerOne) :=
    isUnits_ofNat (Nat.lt_trans hq (by decide))
  obtain ⟨w, hw, hpart⟩ := exists_fraction hr
  obtain ⟨u, hu, hfits, hsum⟩ := exists_round (eq_zero_or_le_of_near hpart) Nat.one_pos
  have hx : x * unitsPerOne = second * (x / second * unitsPerOne) + x % second * unitsPerOne := by
    rw [← Nat.mul_assoc, ← Nat.add_mul, Nat.div_add_mod]
  have hqU : x / second * unitsPerOne ≤ 1000000 * unitsPerOne :=
    Nat.mul_le_mul_right _ (Nat.le_of_lt hq)
  have hrU : x % second * unitsPerOne ≤ second * unitsPerOne :=
    Nat.mul_le_mul_right _ (Nat.le_of_lt hr)
  obtain ⟨hlow, hhigh⟩ := hpart
  obtain ⟨hlow', hhigh'⟩ := hsum
  refine ⟨u, ?_, ?_, ?_⟩
  · rw [seconds, add, hwhole.units, hw.units, hu]
    refine isUnits_ofUnits (j := 21 + 1074) hfits ?_ (by decide)
    rw [two_pow_add_units]
    have hpos := unitsPerOne_pos
    unfold second at *
    omega
  · rw [hx]
    unfold second at *
    omega
  · rw [hx]
    unfold second at *
    omega

theorem atLeastOne_two : (Double.ofNat 2).atLeastOne = Double.ofNat 2 := by decide +kernel

variable {initial max n : Nat}

/-- A product with a power of two that is infinite counts as too large, whatever the first delay is. -/
theorem delay_of_le (h : 1024 ≤ n) : { standard with initial, max }.delay n = max := by
  have hfactor : (Double.ofNat 2).pow (min n (1 <<< 31 - 1)) = infinity false := by
    rw [pow_two]
    exact twoPow_of_le (Nat.le_min.2 ⟨h, by decide⟩)
  unfold delay standard
  dsimp only
  rw [atLeastOne_two, hfactor, isFinite_mul_infinity]
  rfl

/-- A delay is the maximum unless its magnitude is smaller. -/
theorem delay_of_lt {u v : Nat} (hu : (seconds initial).IsUnits u) (hv : (seconds max).IsUnits v)
    (h : n < 1024) :
    { standard with initial, max }.delay n =
      if v ≤ u * 2 ^ n then max else divNearest (u * 2 ^ n * second) unitsPerOne := by
  have hfits : Fits u := hu.units ▸ fits_units _
  have hmin : min n (1 <<< 31 - 1) = n := Nat.min_eq_left (Nat.le_of_lt (Nat.lt_trans h (by decide)))
  unfold delay standard
  dsimp only
  rw [atLeastOne_two, hmin, pow_two, mul_twoPow hu h]
  rcases Nat.lt_or_ge (u * 2 ^ n) (2 ^ 2098) with hlt | hge
  · have hscaled := isUnits_ofUnits (hfits.mul_two_pow n) hlt (Nat.le_refl _)
    have hcompare : (seconds max).magnitudeLE (ofUnits false (u * 2 ^ n)) = true ↔ v ≤ u * 2 ^ n := by
      rw [magnitudeLE_iff, hv.units, hscaled.units]
    rw [hscaled.finite, Bool.not_true, Bool.false_or, ofSeconds, hscaled.units]
    simp only [hcompare]
  · -- what is infinite is above every finite maximum
    have hle : v ≤ u * 2 ^ n := Nat.le_trans (Nat.le_of_lt (hv.lt (Nat.le_refl _))) hge
    have hinfinite : (infinity false).isFinite = false := by decide +kernel
    rw [ofUnits_of_le hge (Nat.le_refl _), hinfinite, Bool.not_false, Bool.true_or, if_pos rfl,
      if_pos hle]

theorem delay_eq_min (hinitial : initial < horizon) (hmax : max < horizon) (h : n < 1024) :
    { standard with initial, max }.delay n = min max (initial * 2 ^ n) := by
  obtain ⟨u, hu, hinitial'⟩ := exists_seconds hinitial
  obtain ⟨v, hv, hmax'⟩ := exists_seconds hmax
  have hproduct := hinitial'.mul_two_pow n
  rw [delay_of_lt hu hv h]
  rcases Nat.lt_trichotomy (initial * 2 ^ n) max with hlt | heq | hgt
  · have hbelow := Nat.lt_trans hlt hmax
    have hless := hproduct.lt hmax' hlt hbelow
    rw [if_neg (Nat.not_le.2 hless), hproduct.divNearest_eq hbelow,
      Nat.min_eq_right (Nat.le_of_lt hlt)]
  · -- either way the delay is the maximum
    rw [hproduct.divNearest_eq (heq ▸ hmax), heq, ite_self, Nat.min_self]
  · have hless := hmax'.lt hproduct hgt hmax
    rw [if_pos (Nat.le_of_lt hless), Nat.min_eq_left (Nat.le_of_lt hgt)]

/-- The delay doubles with each failure until it reaches the maximum, unless it starts at zero: then it
jumps to the maximum after so many failures that the factor is infinite. -/
theorem delay_eq_min_iff (hinitial : initial < horizon) (hmax : max < horizon) (n : Nat) :
    { standard with initial, max }.delay n = min max (initial * 2 ^ n) ↔
      initial ≠ 0 ∨ max = 0 ∨ n < 1024 := by
  rcases Nat.lt_or_ge n 1024 with hlt | hge
  · exact iff_of_true (delay_eq_min hinitial hmax hlt) (.inr (.inr hlt))
  rw [delay_of_le hge]
  rcases Nat.eq_zero_or_pos initial with rfl | hpos
  · rw [Nat.zero_mul, Nat.min_zero]
    omega
  · have hlarge : max ≤ initial * 2 ^ n := by
      have hpow : 2 ^ 50 ≤ 2 ^ n := Nat.pow_le_pow_right (by decide) (by omega)
      have hle : 1 * 2 ^ n ≤ initial * 2 ^ n := Nat.mul_le_mul_right _ hpos
      unfold horizon second at hmax
      omega
    exact iff_of_true (Nat.min_eq_left hlarge).symm (.inl (Nat.ne_of_gt hpos))

/-- The fourth delay from 50 milliseconds on. -/
theorem delay_three : 50 * millisecond < horizon ∧ 5 * second < horizon ∧
    { standard with initial := 50 * millisecond, max := 5 * second }.delay 3 = 400 * millisecond := by
  refine ⟨by decide, by decide, ?_⟩
  rw [(delay_eq_min_iff (by decide) (by decide) 3).2 (.inl (by decide))]
  decide

/-- No delay, doubled any number of times, is no delay. -/
theorem delay_zero_jumps : ¬ { standard with initial := 0, max := 5 * second }.delay 1024 =
    min (5 * second) (0 * 2 ^ 1024) := by
  rw [delay_of_le (Nat.le_refl 1024), Nat.zero_mul]
  decide

end CourierDispatch.Backoff
