/-
TreebankGrammar/Proofs/Precision.lean

How precise the arithmetic of probabilities is.

Every operation gives the number nearest to its exact result.  If the exact
result is *normal* (neither very small nor very large), the number is finite
and off by at most one part in 2^53 (`Binary64.Rounds`).  This holds of the
conversion of naturals, of reciprocals and of sums alike, since there is one
rounding function.

Design.  Values are rationals, and precision is relative (`Near`).  A
magnitude is the rounded quotient on the spacing of the magnitudes near it,
so half a spacing is the error; a normal value has at least 2^52 spacings.
-/
import Mathlib.Algebra.Order.Field.Rat
import Mathlib.Tactic.FieldSimp
import Mathlib.Tactic.Linarith
import Mathlib.Tactic.Positivity
import Mathlib.Tactic.Ring
import TreebankGrammar.Proofs.Rounding

namespace TreebankGrammar

/-! ### Relative precision -/

/-- Whether a value is a nonnegative one up to a part `ε` of it. -/
def Near (ε x y : ℚ) : Prop := |x - y| ≤ ε * y

namespace Near

variable {ε δ x y z : ℚ}

theorem bounds (h : Near ε x y) : (1 - ε) * y ≤ x ∧ x ≤ (1 + ε) * y := by
  have := abs_le.1 h
  constructor <;> linarith

theorem of_bounds (low : (1 - ε) * y ≤ x) (high : x ≤ (1 + ε) * y) :
    Near ε x y :=
  abs_le.2 ⟨by linarith, by linarith⟩

theorem mono (h : Near ε x y) (le : ε ≤ δ) (nonneg : 0 ≤ y) : Near δ x y :=
  h.trans (mul_le_mul_of_nonneg_right le nonneg)

/-- Errors add up, apart from the error of the error. -/
theorem trans (h : Near ε x y) (h' : Near δ y z) (nonneg : 0 ≤ ε) :
    Near (ε + δ + ε * δ) x z := by
  have part : ε * y ≤ ε * ((1 + δ) * z) :=
    mul_le_mul_of_nonneg_left h'.bounds.2 nonneg
  calc |x - z| ≤ |x - y| + |y - z| := abs_sub_le x y z
    _ ≤ ε * y + δ * z := add_le_add h h'
    _ ≤ ε * ((1 + δ) * z) + δ * z := by linarith
    _ = (ε + δ + ε * δ) * z := by ring

/-- Reciprocals are off by the same part, up to a factor of two. -/
theorem one_div (h : Near ε x y) (pos : 0 < y) (small : ε ≤ 1 / 2) :
    Near (2 * ε) (1 / x) (1 / y) := by
  obtain ⟨low, high⟩ := h.bounds
  have half : y / 2 ≤ x := by nlinarith
  have x_pos : 0 < x := by linarith
  have eq : 1 / x - 1 / y = (y - x) / (x * y) := by field_simp
  rw [Near, eq, abs_div, abs_of_pos (mul_pos x_pos pos),
    div_le_iff₀ (mul_pos x_pos pos), abs_sub_comm]
  calc |x - y| ≤ ε * y := h
    _ ≤ 2 * ε * x := by nlinarith [(abs_nonneg (x - y)).trans h]
    _ = 2 * ε * (1 / y) * (x * y) := by field_simp

theorem mul_left (h : Near ε x y) {c : ℚ} (nonneg : 0 ≤ c) :
    Near ε (c * x) (c * y) := by
  have scaled := mul_le_mul_of_nonneg_left h nonneg
  rw [Near, ← mul_sub, abs_mul, abs_of_nonneg nonneg]
  linarith

end Near

/-! ### Rounding -/

theorem shiftLeft_cast (n k : Nat) : ((n <<< k : Nat) : ℚ) = n * 2 ^ k := by
  rw [Nat.shiftLeft_eq]
  push_cast
  rfl

/-- A quotient from `m` up is rounded with an error of half a part in `m`. -/
theorem near_divHalfEven {num den m : Nat} (pos : 0 < den) (m_pos : 0 < m)
    (low : m * den ≤ num) :
    Near (1 / (2 * m)) (divHalfEven num den) (num / den) := by
  obtain ⟨above, below⟩ := two_mul_dist_divHalfEven_le num pos
  have den_pos : (0 : ℚ) < den := by exact_mod_cast pos
  have m_pos' : (0 : ℚ) < m := by exact_mod_cast m_pos
  have low' : (m : ℚ) * den ≤ num := by exact_mod_cast low
  have above' : 2 * (num : ℚ) ≤ 2 * (divHalfEven num den * den) + den := by
    exact_mod_cast above
  have below' : 2 * (divHalfEven num den * den : ℚ) ≤ 2 * num + den := by
    exact_mod_cast below
  have half : (den : ℚ) / 2 ≤ 1 / (2 * m) * num := by
    rw [one_div_mul_eq_div, le_div_iff₀ (by positivity)]
    linarith
  apply Near.of_bounds
  · rw [← mul_div_assoc, div_le_iff₀ den_pos]
    linarith
  · rw [← mul_div_assoc, le_div_iff₀ den_pos]
    linarith

/-- A quotient that is not very small is rounded with a small error. -/
theorem near_magnitude_nearestRank {num den : Nat} (pos : 0 < den)
    (low : 2 ^ 52 * den ≤ num) :
    Near (1 / 2 ^ 53) (magnitude (nearestRank num den)) (num / den) := by
  have ne : num / den ≠ 0 := Nat.ne_of_gt (Nat.div_pos (by omega) pos)
  -- the spacing is small beside the quotient
  have log : 52 ≤ (num / den).log2 := by
    rw [Nat.le_log2 ne]
    exact (Nat.le_div_iff_mul_le pos).2 low
  have small : 2 ^ 52 * (den <<< spacing num den) ≤ num := by
    rw [Nat.shiftLeft_eq, Nat.mul_left_comm, ← Nat.pow_add, spacing,
      Nat.add_sub_cancel' log]
    exact (Nat.mul_le_mul_left _ (Nat.log2_self_le ne)).trans
      (Nat.mul_div_le num den)
  have near := (near_divHalfEven (shiftLeft_pos pos _) (by decide)
    small).mul_left (by positivity : (0 : ℚ) ≤ 2 ^ spacing num den)
  have error : (1 : ℚ) / (2 * (2 ^ 52 : Nat)) = 1 / 2 ^ 53 := by norm_num
  have whole : (2 : ℚ) ^ spacing num den *
      (num / (den <<< spacing num den : Nat)) = num / den := by
    rw [shiftLeft_cast]
    field_simp
  rwa [error, whole, mul_comm, ← shiftLeft_cast, ← magnitude_nearestRank]
    at near

/-! ### Values -/

/-- Whether a value is in the range in which numbers are precise. -/
structure IsNormal (v : ℚ) : Prop where
  low : 1 ≤ v * 2 ^ 1022
  high : v < 2 ^ 1023

theorem IsNormal.pos {v : ℚ} (h : IsNormal v) : 0 < v :=
  pos_of_mul_pos_left (one_pos.trans_le h.low) (by positivity)

/-- Values that are neither very small nor very large are normal. -/
theorem isNormal_of_bounds {v : ℚ} (low : 1 ≤ v * 2 ^ 100)
    (high : v ≤ 2 ^ 100) : IsNormal v := by
  have pos : 0 < v :=
    pos_of_mul_pos_left (one_pos.trans_le low) (by positivity)
  constructor
  · exact low.trans (mul_le_mul_of_nonneg_left
      (pow_le_pow_right₀ (by decide) (by decide)) pos.le)
  · exact high.trans_lt (pow_lt_pow_right₀ (by decide) (by decide))

theorem unitsPerOne_pos : (0 : ℚ) < unitsPerOne := by
  exact_mod_cast one_shiftLeft_pos 1074

theorem unitsPerOne_cast : (unitsPerOne : ℚ) = 2 ^ 52 * 2 ^ 1022 := by
  rw [unitsPerOne_eq, shiftLeft_cast, blockSize, shiftLeft_cast,
    Nat.cast_one, one_mul]

namespace Binary64

/-- The exact value of a finite number. -/
def value? : Binary64 → Option ℚ
  | finite negative rank => some (units negative rank / unitsPerOne)
  | _ => none

/-- Whether a number is finite and near to a value, as near as a rounded
normal value. -/
def Rounds (x : Binary64) (v : ℚ) : Prop :=
  ∃ w, x.value? = some w ∧ Near (1 / 2 ^ 53) w v

/-- **Rounding a normal value** gives a finite number near to it. -/
theorem rounds_nearest {num den : Nat} {v : ℚ} (pos : 0 < den)
    (exact : (num : ℚ) / den = v * unitsPerOne) (normal : IsNormal v) :
    (nearest false num den).Rounds v := by
  have den_pos : (0 : ℚ) < den := by exact_mod_cast pos
  have num_eq : (num : ℚ) = v * unitsPerOne * den := by
    rw [← exact, div_mul_cancel₀ _ (ne_of_gt den_pos)]
  have low : 2 ^ 52 * den ≤ num := by
    have scaled : (2 : ℚ) ^ 52 ≤ v * unitsPerOne := by
      rw [unitsPerOne_cast, mul_left_comm]
      exact le_mul_of_one_le_right (by positivity) normal.low
    have cast : (2 : ℚ) ^ 52 * den ≤ num := by
      rw [num_eq]
      exact mul_le_mul_of_nonneg_right scaled den_pos.le
    exact_mod_cast cast
  have high : num / den < 2 ^ (1023 + (52 + 1022)) := by
    have scaled : v * unitsPerOne < 2 ^ (1023 + (52 + 1022)) := by
      rw [unitsPerOne_cast, pow_add 2 1023, pow_add 2 52]
      exact mul_lt_mul_of_pos_right normal.high (by positivity)
    have cast : (num : ℚ) < 2 ^ (1023 + (52 + 1022)) * den := by
      rw [num_eq]
      exact mul_lt_mul_of_pos_right scaled den_pos
    rw [Nat.div_lt_iff_lt_mul pos]
    exact_mod_cast cast
  have finite : nearestRank num den < infinityRank := by
    have log := log2_lt_of_lt (by omega) high
    calc nearestRank num den
        ≤ (spacing num den + 2) * blockSize := nearestRank_le _ _
      _ ≤ 2046 * blockSize :=
          Nat.mul_le_mul_right _ (by rw [spacing]; omega)
      _ < infinityRank := Nat.mul_lt_mul_of_pos_right (by decide) blockSize_pos
  refine ⟨magnitude (nearestRank num den) / unitsPerOne, ?_, ?_⟩
  · rw [nearest, ofRank, dif_pos finite]
    rfl
  · have near := (near_magnitude_nearestRank pos low).mul_left
      (inv_nonneg.2 unitsPerOne_pos.le)
    rwa [exact, inv_mul_eq_div, inv_mul_eq_div,
      mul_div_cancel_right₀ _ (ne_of_gt unitsPerOne_pos)] at near

/-! ### Operations -/

theorem value?_eq_some {x : Binary64} {v : ℚ} (h : x.value? = some v) :
    ∃ negative rank, x = finite negative rank ∧
      (units negative rank : ℚ) = v * unitsPerOne := by
  cases x with
  | nan => cases h
  | infinity negative => cases h
  | finite negative rank =>
    refine ⟨negative, rank, rfl, ?_⟩
    rw [← Option.some.inj h, div_mul_cancel₀ _ (ne_of_gt unitsPerOne_pos)]

theorem rounds_ofNat {n : Nat} (normal : IsNormal n) : (ofNat n).Rounds n :=
  rounds_nearest Nat.one_pos (by push_cast; ring) normal

/-- Reciprocals are rounded once. -/
theorem rounds_reciprocal {x : Binary64} {v : ℚ} (h : x.value? = some v)
    (pos : 0 < v) (normal : IsNormal (1 / v)) :
    x.reciprocal.Rounds (1 / v) := by
  obtain ⟨negative, rank, rfl, exact⟩ := value?_eq_some h
  have units_pos : (0 : ℚ) < units negative rank := by
    rw [exact]
    exact mul_pos pos unitsPerOne_pos
  -- what is positive has no minus sign
  have positive : negative = false := by
    cases negative with
    | false => rfl
    | true =>
      rw [units, if_pos rfl] at units_pos
      push_cast at units_pos
      linarith [(Nat.cast_nonneg (magnitude rank) : (0 : ℚ) ≤ _)]
  subst positive
  rw [units, if_neg Bool.false_ne_true, Int.cast_natCast] at exact units_pos
  have ne : rank.val ≠ 0 := by
    intro zero
    rw [zero] at units_pos
    exact absurd units_pos (by decide)
  rw [reciprocal, if_neg ne]
  refine rounds_nearest (by exact_mod_cast units_pos) ?_ normal
  rw [exact]
  push_cast
  field_simp

/-- Sums are rounded once. -/
theorem rounds_add {x y : Binary64} {v w : ℚ} (hx : x.value? = some v)
    (hy : y.value? = some w) (normal : IsNormal (v + w)) :
    (x.add y).Rounds (v + w) := by
  obtain ⟨s, a, rfl, ex⟩ := value?_eq_some hx
  obtain ⟨t, b, rfl, ey⟩ := value?_eq_some hy
  have exact : ((units s a + units t b : Int) : ℚ) =
      (v + w) * unitsPerOne := by
    push_cast
    rw [ex, ey, add_mul]
  have pos : 0 < units s a + units t b := by
    have cast : (0 : ℚ) < (units s a + units t b : Int) := by
      rw [exact]
      exact mul_pos normal.pos unitsPerOne_pos
    exact_mod_cast cast
  rw [add]
  simp only [if_neg (ne_of_gt pos), decide_eq_false (not_lt.2 pos.le)]
  refine rounds_nearest Nat.one_pos ?_ normal
  rw [← exact, Nat.cast_one, div_one, Nat.cast_natAbs, abs_of_pos pos]

end Binary64

end TreebankGrammar
