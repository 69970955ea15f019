/-
TreebankGrammar/Proofs/NearestDecimal.lean

Writing gives the nearest decimal.

A decimal has so many digits (`Decimal.HasDigits`) if its coefficient has them,
the first one not being zero; two such decimals have the same value only if
they are the same.  A decimal is *nearest* to a value among those of its count
of digits (`Decimal.IsNearest`) if every other one is further away, or just as
far if the last digit is even.  There is at most one nearest decimal, larger
values do not have smaller ones, and it is the one that is written.

Design.  Above a decimal there is no other for a whole unit of its last digit.
Below it there is none either, except below a power of ten, where decimals lie
ten times as close.  So a decimal is nearest to all values that are at most
half a unit away, and half a tenth of one below a power of ten
(`isNearest_of_abs_sub_le`), and to no others (`IsNearest.two_mul_abs_sub_le`,
`IsNearest.two_mul_sub_le`).

Main results: `isNearest_ofUnits`, `IsNearest.unique` and `IsNearest.mono`.
-/
import TreebankGrammar.Proofs.DecimalPrecision

namespace TreebankGrammar

namespace Decimal

/-- Whether a decimal has so many digits, the first one not zero. -/
structure HasDigits (digits : Nat) (d : Decimal) : Prop where
  low : 10 ^ (digits - 1) ≤ d.coefficient
  high : d.coefficient < 10 ^ digits

/-- The value of a one in the place of the last digit. -/
def lastUnit (d : Decimal) : ℚ := 10 ^ d.exponent

theorem lastUnit_pos (d : Decimal) : 0 < d.lastUnit :=
  zpow_pos (by norm_num) _

theorem value_eq_mul_lastUnit (d : Decimal) :
    d.value = d.coefficient * d.lastUnit := rfl

variable {digits : Nat} {d e : Decimal} {v w : ℚ}

/-! ### The order of decimals -/

namespace HasDigits

theorem pos (h : HasDigits digits d) : 0 < digits := by
  rcases Nat.eq_zero_or_pos digits with rfl | pos
  · exact absurd (Nat.lt_of_le_of_lt h.low h.high) (by decide)
  · exact pos

/-- One digit more is ten times as much. -/
theorem pow_eq (h : HasDigits digits d) :
    10 ^ digits = 10 * 10 ^ (digits - 1) := by
  rw [← Nat.pow_succ', Nat.succ_eq_add_one, Nat.sub_add_cancel h.pos]

theorem lastUnit_le_value (h : HasDigits digits d) :
    10 ^ (digits - 1) * d.lastUnit ≤ d.value := by
  rw [value_eq_mul_lastUnit]
  exact mul_le_mul_of_nonneg_right (by exact_mod_cast h.low) d.lastUnit_pos.le

theorem value_pos (h : HasDigits digits d) : 0 < d.value :=
  lt_of_lt_of_le (mul_pos (by positivity) d.lastUnit_pos) h.lastUnit_le_value

/-- With a larger exponent a decimal is larger. -/
theorem value_lt_of_exponent_lt (hd : HasDigits digits d)
    (he : HasDigits digits e) (lt : d.exponent < e.exponent) :
    d.value < e.value := by
  have high : (d.coefficient : ℚ) < 10 * 10 ^ (digits - 1) := by
    have cast : d.coefficient < 10 * 10 ^ (digits - 1) := hd.pow_eq ▸ hd.high
    exact_mod_cast cast
  calc d.value < 10 * 10 ^ (digits - 1) * d.lastUnit :=
        mul_lt_mul_of_pos_right high d.lastUnit_pos
    _ = 10 ^ (digits - 1) * 10 ^ (d.exponent + 1) := by
        rw [zpow_add_one₀ (by norm_num), lastUnit]
        ring
    _ ≤ 10 ^ (digits - 1) * e.lastUnit :=
        mul_le_mul_of_nonneg_left
          (zpow_le_zpow_right₀ (by norm_num) (Int.add_one_le_of_lt lt))
          (by positivity)
    _ ≤ e.value := he.lastUnit_le_value

/-- Decimals of so many digits are known by their values. -/
theorem eq_of_value_eq (hd : HasDigits digits d) (he : HasDigits digits e)
    (eq : d.value = e.value) : d = e := by
  have exponents : d.exponent = e.exponent := by
    rcases lt_trichotomy d.exponent e.exponent with lt | same | gt
    · exact absurd eq (hd.value_lt_of_exponent_lt he lt).ne
    · exact same
    · exact absurd eq (he.value_lt_of_exponent_lt hd gt).ne'
  have coefficients : (d.coefficient : ℚ) = e.coefficient := by
    rw [value_eq_mul_lastUnit, value_eq_mul_lastUnit, lastUnit, lastUnit,
      exponents] at eq
    exact mul_right_cancel₀ (zpow_ne_zero _ (by norm_num)) eq
  obtain ⟨c, x⟩ := d
  obtain ⟨c', x'⟩ := e
  rw [Decimal.mk.injEq]
  exact ⟨by exact_mod_cast coefficients, exponents⟩

/-! ### Gaps between decimals -/

/-- Above a decimal there is none for a whole unit of its last digit. -/
theorem value_add_lastUnit_le (hd : HasDigits digits d)
    (he : HasDigits digits e) (lt : d.value < e.value) :
    d.value + d.lastUnit ≤ e.value := by
  rcases lt_or_ge e.exponent d.exponent with smaller | larger
  · exact absurd lt (he.value_lt_of_exponent_lt hd smaller).not_gt
  · -- the larger decimal is a whole number of these units
    obtain ⟨k, eq⟩ := Int.le.dest larger
    have whole : e.value = (e.coefficient * 10 ^ k : Nat) * d.lastUnit := by
      rw [value_eq_mul_lastUnit, lastUnit, lastUnit, ← eq,
        zpow_add₀ (by norm_num), zpow_natCast]
      push_cast
      ring
    rw [whole, value_eq_mul_lastUnit] at lt ⊢
    have counts := lt_of_mul_lt_mul_right lt d.lastUnit_pos.le
    have next : d.coefficient + 1 ≤ e.coefficient * 10 ^ k := by
      exact_mod_cast counts
    calc d.coefficient * d.lastUnit + d.lastUnit
        = (d.coefficient + 1 : Nat) * d.lastUnit := by
          push_cast
          ring
      _ ≤ (e.coefficient * 10 ^ k : Nat) * d.lastUnit :=
          mul_le_mul_of_nonneg_right (by exact_mod_cast next)
            d.lastUnit_pos.le

/-- What is less than a unit above a decimal is not above it. -/
theorem value_le_of_lt (hd : HasDigits digits d) (he : HasDigits digits e)
    (lt : e.value < d.value + d.lastUnit) : e.value ≤ d.value :=
  not_lt.1 fun above => (hd.value_add_lastUnit_le he above).not_gt lt

/-- A unit above a decimal there is the next one. -/
theorem exists_above (h : HasDigits digits d) :
    ∃ s, HasDigits digits s ∧ s.value = d.value + d.lastUnit := by
  have low := h.low
  have high := h.high
  rcases Nat.lt_or_eq_of_le (Nat.succ_le_of_lt high) with inside | carry
  · refine ⟨⟨d.coefficient + 1, d.exponent⟩, ⟨?_, inside⟩, ?_⟩
    · exact Nat.le_succ_of_le low
    · rw [value, value, lastUnit]
      push_cast
      ring
  · -- the next one is a power of ten, with a larger exponent
    refine ⟨⟨10 ^ (digits - 1), d.exponent + 1⟩, ⟨le_rfl, ?_⟩, ?_⟩
    · exact Nat.pow_lt_pow_right (by decide) (Nat.sub_lt h.pos Nat.one_pos)
    · have whole : (d.coefficient : ℚ) + 1 = 10 * 10 ^ (digits - 1) := by
        exact_mod_cast carry.trans h.pow_eq
      rw [value, value, lastUnit, zpow_add_one₀ (by norm_num)]
      push_cast
      linear_combination -(10 : ℚ) ^ d.exponent * whole

/-- A unit below a decimal that is no power of ten there is the one
before. -/
theorem exists_below (h : HasDigits digits d)
    (inside : 10 ^ (digits - 1) < d.coefficient) :
    ∃ p, HasDigits digits p ∧ p.lastUnit = d.lastUnit ∧
      p.value + d.lastUnit = d.value := by
  have high := h.high
  refine ⟨⟨d.coefficient - 1, d.exponent⟩, ⟨?_, ?_⟩, rfl, ?_⟩
  · exact Nat.le_sub_one_of_lt inside
  · exact Nat.lt_of_le_of_lt (Nat.sub_le _ _) high
  · rw [value, value, lastUnit, Nat.cast_sub (Nat.one_le_of_lt inside)]
    push_cast
    ring

/-- Below a power of ten the one before is ten times as near. -/
theorem exists_below_power (h : HasDigits digits d)
    (power : d.coefficient = 10 ^ (digits - 1)) :
    ∃ p, HasDigits digits p ∧ p.lastUnit = d.lastUnit / 10 ∧
      p.value + d.lastUnit / 10 = d.value := by
  have pos : 0 < 10 ^ (digits - 1) := Nat.pow_pos (by decide)
  have whole := h.pow_eq
  have tenth : (10 : ℚ) ^ (d.exponent - 1) = d.lastUnit / 10 := by
    rw [zpow_sub_one₀ (by norm_num), lastUnit, div_eq_mul_inv]
  refine ⟨⟨10 ^ digits - 1, d.exponent - 1⟩, ⟨?_, ?_⟩, tenth, ?_⟩
  · show 10 ^ (digits - 1) ≤ 10 ^ digits - 1
    omega
  · show 10 ^ digits - 1 < 10 ^ digits
    omega
  · rw [value, tenth, value_eq_mul_lastUnit, power,
      Nat.cast_sub (Nat.pow_pos (by decide)), whole]
    push_cast
    ring

end HasDigits

/-! ### The nearest decimal -/

/-- Whether a decimal is the nearest to a value of those with so many digits:
every other one is further away, or just as far if the last digit is even. -/
structure IsNearest (digits : Nat) (d : Decimal) (v : ℚ) : Prop where
  hasDigits : HasDigits digits d
  nearer : ∀ e, HasDigits digits e → e ≠ d →
    |d.value - v| < |e.value - v| ∨
      |d.value - v| = |e.value - v| ∧ d.coefficient % 2 = 0

/-- What is at least a gap away from one place is further away from all that
is within half the gap of it. -/
theorem nearer_of_gap {x y g : ℚ} {even : Prop} (gap : g ≤ |y - x|)
    (near : 2 * |x - v| ≤ g) (tie : 2 * |x - v| = g → even) :
    |x - v| < |y - v| ∨ |x - v| = |y - v| ∧ even := by
  have detour := abs_sub_le y v x
  rw [abs_sub_comm v x] at detour
  rcases lt_or_eq_of_le (by linarith : |x - v| ≤ |y - v|) with lt | eq
  · exact .inl lt
  · exact .inr ⟨eq, tie (by linarith)⟩

/-- **What a decimal is nearest to**: all that is at most half a unit of its
last digit away, and half a tenth of one below a power of ten; half a unit
only if the last digit is even. -/
theorem isNearest_of_abs_sub_le (h : HasDigits digits d) (many : 1 < digits)
    (near : 2 * |d.value - v| ≤ d.lastUnit)
    (tie : 2 * |d.value - v| = d.lastUnit → d.coefficient % 2 = 0)
    (power : d.coefficient = 10 ^ (digits - 1) →
      d.value ≤ v ∨ 2 * (d.value - v) ≤ d.lastUnit / 10) :
    IsNearest digits d v := by
  refine ⟨h, fun e he ne => ?_⟩
  rcases lt_or_gt_of_ne (mt (he.eq_of_value_eq h) ne) with below | above
  · rcases Nat.lt_or_eq_of_le h.low with inside | isPower
    · -- the decimal before this one is a unit away
      obtain ⟨p, hp, unit, next⟩ := h.exists_below inside
      have le := hp.value_le_of_lt he (by rwa [unit, next])
      refine nearer_of_gap ?_ near tie
      rw [abs_sub_comm, abs_of_pos (sub_pos.2 below)]
      linarith
    · obtain ⟨p, hp, unit, next⟩ := h.exists_below_power isPower.symm
      have le := hp.value_le_of_lt he (by rwa [unit, next])
      rcases power isPower.symm with order | close
      · -- both are below the value
        left
        rw [abs_of_nonpos (by linarith), abs_of_nonpos (by linarith)]
        linarith
      · rcases le_or_gt d.value v with order | order
        · left
          rw [abs_of_nonpos (by linarith), abs_of_nonpos (by linarith)]
          linarith
        · have distance := abs_of_pos (sub_pos.2 order)
          refine nearer_of_gap (g := d.lastUnit / 10) ?_ ?_ fun _ => ?_
          · rw [abs_sub_comm, abs_of_pos (sub_pos.2 below)]
            linarith
          · rwa [distance]
          · rw [← isPower]
            exact Nat.even_iff.1
              (Even.pow_of_ne_zero (by decide) (by omega))
  · have gap := h.value_add_lastUnit_le he above
    refine nearer_of_gap ?_ near tie
    rw [abs_of_pos (sub_pos.2 above)]
    linarith

/-- What is as near to the larger of two places lies above their middle. -/
theorem add_le_two_mul {x y : ℚ} (lt : y < x) (near : |x - v| ≤ |y - v|) :
    x + y ≤ 2 * v := by
  have product : (x - y) * (x + y) ≤ (x - y) * (2 * v) := by
    linarith [sq_le_sq.2 near]
  exact le_of_mul_le_mul_left product (sub_pos.2 lt)

/-- What is as near to the smaller of two places lies below their middle. -/
theorem two_mul_le_add {x y : ℚ} (lt : x < y) (near : |x - v| ≤ |y - v|) :
    2 * v ≤ x + y := by
  have product : (y - x) * (2 * v) ≤ (y - x) * (x + y) := by
    linarith [sq_le_sq.2 near]
  exact le_of_mul_le_mul_left product (sub_pos.2 lt)

namespace IsNearest

theorem le (h : IsNearest digits d v) (he : HasDigits digits e) :
    |d.value - v| ≤ |e.value - v| := by
  by_cases same : e = d
  · rw [same]
  · rcases h.nearer e he same with lt | ⟨eq, -⟩
    · exact lt.le
    · exact eq.le

/-- Below a power of ten a value is at most half a tenth of a unit away from
its nearest decimal. -/
theorem two_mul_sub_le (h : IsNearest digits d v)
    (power : d.coefficient = 10 ^ (digits - 1)) :
    2 * (d.value - v) ≤ d.lastUnit / 10 := by
  obtain ⟨p, hp, -, next⟩ := h.hasDigits.exists_below_power power
  have unit := d.lastUnit_pos
  have middle := add_le_two_mul (by linarith) (h.le hp)
  linarith

/-- A value is at most half a unit away from its nearest decimal. -/
theorem two_mul_abs_sub_le (h : IsNearest digits d v) :
    2 * |d.value - v| ≤ d.lastUnit := by
  have unit := d.lastUnit_pos
  have above : 2 * (v - d.value) ≤ d.lastUnit := by
    obtain ⟨s, hs, next⟩ := h.hasDigits.exists_above
    have middle := two_mul_le_add (by linarith) (h.le hs)
    linarith
  have below : 2 * (d.value - v) ≤ d.lastUnit := by
    rcases Nat.lt_or_eq_of_le h.hasDigits.low with inside | power
    · obtain ⟨p, hp, -, next⟩ := h.hasDigits.exists_below inside
      have middle := add_le_two_mul (by linarith) (h.le hp)
      linarith
    · linarith [h.two_mul_sub_le power.symm]
  rcases abs_cases (d.value - v) with ⟨eq, -⟩ | ⟨eq, -⟩ <;> linarith

/-- The last digit is even if a value is half a unit away. -/
theorem even_of_two_mul_abs_sub_eq (h : IsNearest digits d v)
    (tie : 2 * |d.value - v| = d.lastUnit) : d.coefficient % 2 = 0 := by
  have unit := d.lastUnit_pos
  -- the next decimal on the side of the value is as near
  have side : ∀ {s : Decimal}, HasDigits digits s → s.value ≠ d.value →
      2 * |s.value - v| = d.lastUnit → d.coefficient % 2 = 0 := by
    intro s hs ne eq
    have apart : s ≠ d := by
      rintro rfl
      exact ne rfl
    have same : |d.value - v| = |s.value - v| := by linarith
    exact ((h.nearer s hs apart).resolve_left same.not_lt).2
  rcases abs_cases (d.value - v) with ⟨eq, -⟩ | ⟨eq, -⟩ <;> rw [eq] at tie
  · rcases Nat.lt_or_eq_of_le h.hasDigits.low with inside | power
    · obtain ⟨p, hp, -, next⟩ := h.hasDigits.exists_below inside
      refine side hp (by linarith) ?_
      rw [abs_of_nonpos (by linarith)]
      linarith
    · -- below a power of ten no value is so far away
      linarith [h.two_mul_sub_le power.symm]
  · obtain ⟨s, hs, next⟩ := h.hasDigits.exists_above
    refine side hs (by linarith) ?_
    rw [abs_of_nonneg (by linarith)]
    linarith

/-- Only positive values have a nearest decimal. -/
theorem pos (h : IsNearest digits d v) : 0 < v := by
  have near := h.two_mul_abs_sub_le
  have unit := d.lastUnit_pos
  have many : (1 : ℚ) ≤ 10 ^ (digits - 1) := one_le_pow₀ (by norm_num)
  have first := h.hasDigits.lastUnit_le_value
  have one := mul_le_mul_of_nonneg_right many unit.le
  linarith [le_abs_self (d.value - v)]

/-- Of two nearest decimals neither is the smaller one. -/
theorem not_lt_of_isNearest (h : IsNearest digits d v)
    (h' : IsNearest digits e v) : ¬ d.value < e.value := by
  intro lt
  have same := le_antisymm (h.le h'.hasDigits) (h'.le h.hasDigits)
  have ne : e ≠ d := by
    rintro rfl
    exact lt.false
  have even :=
    ((h.nearer e h'.hasDigits ne).resolve_left same.not_lt).2
  have even' :=
    ((h'.nearer d h.hasDigits ne.symm).resolve_left same.not_gt).2
  -- the value is in the middle, so the larger decimal is the next one
  have low := two_mul_le_add lt same.le
  have high := add_le_two_mul lt same.ge
  have near := h.two_mul_abs_sub_le
  rw [abs_of_nonpos (by linarith)] at near
  have gap := h.hasDigits.value_add_lastUnit_le h'.hasDigits lt
  have next : HasDigits digits ⟨d.coefficient + 1, d.exponent⟩ := by
    refine ⟨Nat.le_succ_of_le h.hasDigits.low, ?_⟩
    -- the last decimal with an exponent is odd
    have high := h.hasDigits.high
    have whole := h.hasDigits.pow_eq
    generalize 10 ^ digits = most at high whole ⊢
    generalize 10 ^ (digits - 1) = least at whole
    show d.coefficient + 1 < most
    omega
  have value : (⟨d.coefficient + 1, d.exponent⟩ : Decimal).value =
      d.value + d.lastUnit := by
    rw [value_eq_mul_lastUnit, value_eq_mul_lastUnit, lastUnit, lastUnit]
    push_cast
    ring
  rw [← next.eq_of_value_eq h'.hasDigits (by linarith)] at even'
  have odd : (d.coefficient + 1) % 2 = 0 := even'
  omega

/-- There is one nearest decimal only. -/
theorem unique (h : IsNearest digits d v) (h' : IsNearest digits e v) :
    d = e :=
  h.hasDigits.eq_of_value_eq h'.hasDigits
    (le_antisymm (not_lt.1 (h'.not_lt_of_isNearest h))
      (not_lt.1 (h.not_lt_of_isNearest h')))

/-- **Larger values** do not have smaller nearest decimals. -/
theorem mono (h : IsNearest digits d v) (h' : IsNearest digits e w)
    (le : v ≤ w) : d.value ≤ e.value := by
  refine not_lt.1 fun below => ?_
  -- both values are in the middle between the decimals
  have high := add_le_two_mul below (h.le h'.hasDigits)
  have low := two_mul_le_add below (h'.le h.hasDigits)
  obtain rfl : v = w := by linarith
  rw [h.unique h'] at below
  exact below.false

end IsNearest

/-! ### What is written -/

-- powers of ten and numbers of units are never evaluated
attribute [local irreducible] tenTo unitsPerOne

theorem hasDigits_iff {c : Nat} {x : Int} :
    HasDigits (digits + 1) ⟨c, x⟩ ↔
      tenTo digits ≤ c ∧ c < tenTo (digits + 1) := by
  rw [tenTo_eq, tenTo_eq]
  exact ⟨fun h => ⟨h.low, h.high⟩, fun h => ⟨h.1, h.2⟩⟩

/-- On its grid a magnitude is at most half a unit away from the rounded
coefficient, which is even if it is half a unit away. -/
theorem two_mul_abs_gridCoefficient_sub_le (digits units : Nat) :
    2 * |gridCoefficient digits units *
            (10 : ℚ) ^ gridExponent (digits + 1) (place units) -
          units / unitsPerOne| ≤
        10 ^ gridExponent (digits + 1) (place units) ∧
      (2 * |gridCoefficient digits units *
              (10 : ℚ) ^ gridExponent (digits + 1) (place units) -
            units / unitsPerOne| =
          10 ^ gridExponent (digits + 1) (place units) →
        gridCoefficient digits units % 2 = 0) := by
  have den_pos := unitsPerOne_mul_tenTo_pos (place units)
  have rounded := abs_divHalfEven_sub_le
    (units * tenTo (placeOrigin + digits)) den_pos
  rw [← gridCoefficient] at rounded
  obtain ⟨near, tie⟩ := rounded
  rw [← zpow_gridExponent_mul digits units]
  have grid : (0 : ℚ) < 10 ^ gridExponent (digits + 1) (place units) :=
    zpow_pos (by norm_num) _
  generalize (10 : ℚ) ^ gridExponent (digits + 1) (place units) = unit
    at grid ⊢
  rw [mul_comm _ unit, ← mul_sub, abs_mul, abs_of_pos grid]
  constructor
  · linarith [mul_le_mul_of_nonneg_left near grid.le]
  · intro half
    exact tie (mul_left_cancel₀ grid.ne' (by linarith))

/-- **Writing gives the nearest decimal.** -/
theorem isNearest_ofUnits {units : Nat} (digits : Nat) (many : 0 < digits)
    (pos : 0 < units) (finite : units < unitsPerOne <<< 1024) :
    IsNearest (digits + 1) (ofUnits (digits + 1) units)
      (units / unitsPerOne) := by
  obtain ⟨near, tie⟩ := two_mul_abs_gridCoefficient_sub_le digits units
  obtain ⟨least, most⟩ := gridCoefficient_bounds digits pos finite
  by_cases fits : gridCoefficient digits units < tenTo (digits + 1)
  · rw [ofUnits_eq, if_pos fits]
    refine isNearest_of_abs_sub_le (hasDigits_iff.2 ⟨least, fits⟩) (by omega)
      near tie fun power => .inl ?_
    -- a magnitude is not below the power of ten of its place
    have den_pos : (0 : ℚ) < (unitsPerOne * tenTo (place units) : Nat) :=
      Nat.cast_pos.2 (unitsPerOne_mul_tenTo_pos _)
    rw [value, ← zpow_gridExponent_mul digits units, mul_comm]
    refine mul_le_mul_of_nonneg_left ?_ (zpow_nonneg (by norm_num) _)
    rw [le_div_iff₀ den_pos]
    have low := (grid_bounds digits pos finite).1
    rw [← power.trans (tenTo_eq digits).symm] at low
    exact_mod_cast low
  · -- the coefficient is the next power of ten
    have carried : gridCoefficient digits units = tenTo (digits + 1) := by
      omega
    have value : (⟨tenTo digits,
        gridExponent (digits + 1) (place units + 1)⟩ : Decimal).value =
        gridCoefficient digits units *
          10 ^ gridExponent (digits + 1) (place units) := by
      rw [← value_ofUnits digits pos finite, ofUnits_eq, if_neg fits]
    have unit : (⟨tenTo digits,
        gridExponent (digits + 1) (place units + 1)⟩ : Decimal).lastUnit =
        10 ^ gridExponent (digits + 1) (place units) * 10 := by
      rw [lastUnit, gridExponent_succ, zpow_add_one₀ (by norm_num)]
    have step : (0 : ℚ) < 10 ^ gridExponent (digits + 1) (place units) :=
      zpow_pos (by norm_num) _
    rw [ofUnits_eq, if_neg fits]
    refine isNearest_of_abs_sub_le (hasDigits_iff.2 ⟨le_rfl, ?_⟩) (by omega)
      ?_ ?_ fun _ => .inr ?_
    · exact tenTo_lt_tenTo_iff.2 (Nat.lt_succ_self digits)
    · rw [value, unit]
      linarith
    · rw [value, unit]
      intro half
      linarith
    · rw [value, unit]
      linarith [le_abs_self (gridCoefficient digits units *
        (10 : ℚ) ^ gridExponent (digits + 1) (place units) -
          units / unitsPerOne)]

end Decimal

end TreebankGrammar
