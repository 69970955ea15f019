/-
TreebankGrammar/Proofs/NearestNumber.lean

Rounding gives the nearest number.

Ranks go on without end, and so do their magnitudes; only those below the
rank of infinity are finite numbers.  A rank is *nearest* to a count of units
(`IsNearestRank`) if no other magnitude is as near, or if one is and the rank
is even.  There is exactly one such rank, and it is the one that rounding
gives.  A number is nearest to a value if its rank is, where a rank past the
last finite one makes it an infinity (`Binary64.IsNearest`).

Design.  Beside a magnitude that was rounded to, the next one above is at
least a spacing away.  The next one below may be nearer than that, since the
spacing halves at the first magnitude of a block, but rounding reaches such a
magnitude only from above.  So every competitor is either at least half a
spacing away from the quotient, or further away on the same side.

Main results: `isNearestRank_nearestRank` and `IsNearestRank.unique`.
-/
import Mathlib.Data.Nat.Cast.Order.Field
import Mathlib.Order.Monotone.Basic
import Mathlib.Tactic.LinearCombination
import TreebankGrammar.Proofs.Precision

namespace TreebankGrammar

/-! ### Neighbours of a magnitude -/

/-- Every rank has its place in a block. -/
theorem exists_block (rank : Nat) :
    ∃ shift k, rank = shift * blockSize + k ∧
      (shift = 0 ∨ blockSize ≤ k) ∧ k < 2 * blockSize := by
  have pos := blockSize_pos
  rcases Nat.lt_or_ge rank blockSize with first | later
  · exact ⟨0, rank, by omega, .inl rfl, by omega⟩
  · have block : 1 ≤ rank / blockSize :=
      (Nat.le_div_iff_mul_le pos).2 (by omega)
    have place := Nat.mod_lt rank pos
    have whole := Nat.div_add_mod rank blockSize
    refine ⟨rank / blockSize - 1, blockSize + rank % blockSize, ?_,
      .inr (Nat.le_add_right _ _), by omega⟩
    rw [← Nat.add_assoc, ← Nat.succ_mul, Nat.succ_eq_add_one,
      Nat.sub_add_cancel block, Nat.mul_comm]
    exact whole.symm

/-- Inside a block the next magnitude is a spacing away. -/
theorem magnitude_succ {shift k : Nat} (low : shift = 0 ∨ blockSize ≤ k)
    (inside : k < 2 * blockSize) :
    magnitude (shift * blockSize + (k + 1)) =
      magnitude (shift * blockSize + k) + 2 ^ shift := by
  rw [magnitude_block (by omega) (by omega), magnitude_block low (by omega),
    Nat.shiftLeft_eq, Nat.shiftLeft_eq, Nat.succ_mul]

theorem strictMono_magnitude : StrictMono magnitude := by
  refine strictMono_nat_of_lt_succ fun rank => ?_
  obtain ⟨shift, k, rfl, low, inside⟩ := exists_block rank
  rw [Nat.add_assoc, magnitude_succ low inside]
  exact Nat.lt_add_of_pos_right (Nat.two_pow_pos shift)

/-- The magnitude after the largest finite one is two to the 1024. -/
theorem magnitude_infinityRank :
    magnitude infinityRank = unitsPerOne <<< 1024 := by
  have place : infinityRank = 2045 * blockSize + 2 * blockSize := by
    rw [infinityRank]
    ring
  rw [place, magnitude_block (.inr (Nat.le_mul_of_pos_left _ (by decide)))
    le_rfl, unitsPerOne_eq, ← Nat.shiftLeft_add, ← Nat.shiftLeft_succ_inside]

/-- Above a magnitude there is none for a whole spacing. -/
theorem magnitude_add_spacing_le {shift k other : Nat}
    (low : shift = 0 ∨ blockSize ≤ k) (high : k ≤ 2 * blockSize)
    (above : shift * blockSize + k < other) :
    magnitude (shift * blockSize + k) + 2 ^ shift ≤ magnitude other := by
  have next := strictMono_magnitude.monotone (Nat.succ_le_of_lt above)
  rcases Nat.lt_or_ge k (2 * blockSize) with inside | last
  · rwa [Nat.succ_eq_add_one, Nat.add_assoc, magnitude_succ low inside]
      at next
  · -- the first magnitude of the next block, where the spacing is twice this
    obtain rfl : k = 2 * blockSize := by omega
    have place : shift * blockSize + 2 * blockSize =
        (shift + 1) * blockSize + blockSize := by ring
    rw [place, Nat.succ_eq_add_one, Nat.add_assoc, magnitude_succ
      (.inr le_rfl) (by have := blockSize_pos; omega)] at next
    rw [place]
    exact Nat.le_trans (Nat.add_le_add_left
      (Nat.pow_le_pow_right (by decide) (Nat.le_succ shift)) _) next

/-- Below a magnitude there is none for a whole spacing, unless it is the
first of its block. -/
theorem magnitude_add_spacing_le_of_lt {shift k other : Nat}
    (low : shift = 0 ∨ blockSize < k) (high : k ≤ 2 * blockSize)
    (below : other < shift * blockSize + k) :
    magnitude other + 2 ^ shift ≤ magnitude (shift * blockSize + k) := by
  rcases k with - | k
  · -- there is no first rank below rank zero
    obtain rfl : shift = 0 := by omega
    omega
  · rw [magnitude_succ (by omega) (by omega)]
    refine Nat.add_le_add_right (strictMono_magnitude.monotone ?_) _
    omega

/-! ### Ties -/

/-- Of two equally near naturals the even one is taken. -/
theorem even_divHalfEven {num den : Nat} (pos : 0 < den)
    (tie : 2 * num = 2 * (divHalfEven num den * den) + den ∨
      2 * (divHalfEven num den * den) = 2 * num + den) :
    divHalfEven num den % 2 = 0 := by
  have whole := Nat.div_add_mod num den
  rw [Nat.mul_comm] at whole
  have rest := Nat.mod_lt num pos
  by_cases below : 2 * (num % den) < den
  · have eq : divHalfEven num den = num / den := by
      simp [divHalfEven, below]
    rw [eq] at tie
    omega
  · by_cases above : den < 2 * (num % den)
    · have eq : divHalfEven num den = num / den + 1 := by
        simp [divHalfEven, below, above]
      rw [eq, Nat.add_mul] at tie
      omega
    · simp only [divHalfEven, if_neg below, if_neg above]
      omega

/-- The rounded quotient is at most half away, and it is even if it is half
away. -/
theorem abs_divHalfEven_sub_le (num : Nat) {den : Nat} (pos : 0 < den) :
    |(divHalfEven num den : ℚ) - num / den| ≤ 1 / 2 ∧
      (|(divHalfEven num den : ℚ) - num / den| = 1 / 2 →
        divHalfEven num den % 2 = 0) := by
  have pos' : (0 : ℚ) < den := by exact_mod_cast pos
  obtain ⟨above, below⟩ := two_mul_dist_divHalfEven_le num pos
  have scaled : (num : ℚ) = num / den * den := by field_simp
  generalize eq : (num : ℚ) / den = q at scaled ⊢
  constructor
  · have above' : 2 * (num : ℚ) ≤ 2 * (divHalfEven num den * den) + den := by
      exact_mod_cast above
    have below' : 2 * (divHalfEven num den * den : ℚ) ≤ 2 * num + den := by
      exact_mod_cast below
    rw [scaled] at above' below'
    rw [abs_le]
    constructor <;> refine le_of_mul_le_mul_right ?_ pos' <;> linarith
  · intro half
    refine even_divHalfEven pos ?_
    have cast : 2 * (num : ℚ) = 2 * (divHalfEven num den * den) + den ∨
        2 * (divHalfEven num den * den : ℚ) = 2 * num + den := by
      rw [scaled]
      rcases abs_choice ((divHalfEven num den : ℚ) - q) with sign | sign <;>
        rw [sign] at half
      · right
        linear_combination 2 * (den : ℚ) * half
      · left
        linear_combination 2 * (den : ℚ) * half
    exact_mod_cast cast

/-! ### The nearest rank -/

/-- Whether a rank is the nearest to a count of units: every other one is
further away, or just as far if the rank is even. -/
def IsNearestRank (q : ℚ) (rank : Nat) : Prop :=
  ∀ other, other ≠ rank →
    |(magnitude rank : ℚ) - q| < |(magnitude other : ℚ) - q| ∨
      |(magnitude rank : ℚ) - q| = |(magnitude other : ℚ) - q| ∧ rank % 2 = 0

theorem even_blockSize : blockSize % 2 = 0 := by decide

/-- A rounded magnitude is at most half a spacing away from the quotient, and
its rank is even if it is half a spacing away. -/
theorem abs_magnitude_nearestRank_sub_le (num : Nat) {den : Nat}
    (pos : 0 < den) :
    2 * |(magnitude (nearestRank num den) : ℚ) - num / den| ≤
        2 ^ spacing num den ∧
      (2 * |(magnitude (nearestRank num den) : ℚ) - num / den| =
          2 ^ spacing num den → nearestRank num den % 2 = 0) := by
  have step : (0 : ℚ) < 2 ^ spacing num den := by positivity
  have den_pos : (0 : ℚ) < den := by exact_mod_cast pos
  obtain ⟨near, tie⟩ := abs_divHalfEven_sub_le num
    (shiftLeft_pos pos (spacing num den))
  have distance : (magnitude (nearestRank num den) : ℚ) - num / den =
      2 ^ spacing num den *
        ((divHalfEven num (den <<< spacing num den) : ℚ) -
          num / (den <<< spacing num den : Nat)) := by
    rw [magnitude_nearestRank, shiftLeft_cast, shiftLeft_cast]
    field_simp
  rw [distance, abs_mul, abs_of_pos step]
  constructor
  · linarith [mul_le_mul_of_nonneg_left near step.le]
  · intro half
    have even := tie (mul_left_cancel₀ step.ne' (by linarith))
    rw [nearestRank_eq, Nat.add_mod, Nat.mul_mod, even_blockSize, even]
    simp

/-- Beyond the first two blocks a quotient is not below its block. -/
theorem block_le_quotient {num den : Nat} (h : 0 < spacing num den) :
    blockSize * 2 ^ spacing num den ≤ num / den := by
  have log : 52 + spacing num den = (num / den).log2 := by
    rw [spacing] at h ⊢
    omega
  have ne : num / den ≠ 0 := by
    intro zero
    rw [zero, Nat.log2_zero] at log
    omega
  rw [blockSize_eq, ← Nat.pow_add, log]
  exact Nat.log2_self_le ne

/-- Every other magnitude is further away from the quotient than the rounded
one, or half a spacing away. -/
theorem lt_or_le_abs_magnitude_sub (num : Nat) {den other : Nat}
    (pos : 0 < den) (ne : other ≠ nearestRank num den) :
    |(magnitude (nearestRank num den) : ℚ) - num / den| <
        |(magnitude other : ℚ) - num / den| ∨
      2 ^ spacing num den ≤ 2 * |(magnitude other : ℚ) - num / den| := by
  obtain ⟨high, low⟩ := spacing_spec num den
  have near := (abs_magnitude_nearestRank_sub_le num pos).1
  have den_pos : (0 : ℚ) < den := by exact_mod_cast pos
  rcases Nat.lt_or_gt_of_ne ne with below | above
  · rcases le_or_gt (magnitude (nearestRank num den) : ℚ) (num / den) with
      left | right
    · -- both are below the quotient
      have order : (magnitude other : ℚ) < magnitude (nearestRank num den) := by
        exact_mod_cast strictMono_magnitude below
      left
      rw [abs_of_nonpos (by linarith), abs_of_nonpos (by linarith)]
      linarith
    · -- the quotient was rounded up, so it was not to the first of a block
      have inside : spacing num den = 0 ∨
          blockSize < divHalfEven num (den <<< spacing num den) := by
        rcases Nat.eq_zero_or_pos (spacing num den) with zero | pos
        · exact .inl zero
        · right
          have block : ((blockSize * 2 ^ spacing num den : Nat) : ℚ) ≤
              num / den :=
            le_trans (by exact_mod_cast block_le_quotient pos) Nat.cast_div_le
          rw [magnitude_nearestRank, Nat.shiftLeft_eq] at right
          have order := block.trans_lt right
          exact Nat.lt_of_mul_lt_mul_right (by exact_mod_cast order)
      have gap := magnitude_add_spacing_le_of_lt inside high
        (nearestRank_eq num den ▸ below)
      rw [← nearestRank_eq] at gap
      have gap' : (magnitude other : ℚ) + 2 ^ spacing num den ≤
          magnitude (nearestRank num den) := by
        exact_mod_cast gap
      right
      have := le_abs_self ((magnitude (nearestRank num den) : ℚ) - num / den)
      have := neg_abs_le ((magnitude other : ℚ) - num / den)
      linarith
  · have gap := magnitude_add_spacing_le low high
      (nearestRank_eq num den ▸ above)
    rw [← nearestRank_eq] at gap
    have gap' : (magnitude (nearestRank num den) : ℚ) + 2 ^ spacing num den ≤
        magnitude other := by
      exact_mod_cast gap
    right
    have := neg_abs_le ((magnitude (nearestRank num den) : ℚ) - num / den)
    have := le_abs_self ((magnitude other : ℚ) - num / den)
    linarith

/-- **Rounding gives the nearest rank.** -/
theorem isNearestRank_nearestRank (num : Nat) {den : Nat} (pos : 0 < den) :
    IsNearestRank (num / den) (nearestRank num den) := by
  intro other ne
  obtain ⟨near, tie⟩ := abs_magnitude_nearestRank_sub_le num pos
  rcases lt_or_le_abs_magnitude_sub num pos ne with further | far
  · exact .inl further
  · rcases lt_or_eq_of_le (le_of_mul_le_mul_left (near.trans far) two_pos)
      with further | same
    · exact .inl further
    · exact .inr ⟨same, tie (le_antisymm near (same ▸ far))⟩

namespace IsNearestRank

variable {q : ℚ} {rank : Nat}

theorem le (h : IsNearestRank q rank) (other : Nat) :
    |(magnitude rank : ℚ) - q| ≤ |(magnitude other : ℚ) - q| := by
  by_cases same : other = rank
  · rw [same]
  · rcases h other same with further | ⟨equal, -⟩
    · exact further.le
    · exact equal.le

/-- A magnitude between two others is nearer to their middle. -/
theorem not_lt_of_isNearestRank {rank' : Nat} (h : IsNearestRank q rank)
    (h' : IsNearestRank q rank') : ¬ rank < rank' := by
  intro below
  have order : (magnitude rank : ℚ) < magnitude rank' := by
    exact_mod_cast strictMono_magnitude below
  have same := le_antisymm (h.le rank') (h'.le rank)
  -- both are even, so there is a rank between them
  have even := ((h rank' (Nat.ne_of_gt below)).resolve_left same.not_lt).2
  have even' := ((h' rank (Nat.ne_of_lt below)).resolve_left same.not_gt).2
  have above : (magnitude rank : ℚ) < magnitude (rank + 1) := by
    exact_mod_cast strictMono_magnitude (Nat.lt_succ_self rank)
  have below' : (magnitude (rank + 1) : ℚ) < magnitude rank' := by
    exact_mod_cast strictMono_magnitude (by omega : rank + 1 < rank')
  have middle : (magnitude rank' : ℚ) - q = q - magnitude rank := by
    rcases abs_eq_abs.1 same with equal | opposite <;> linarith
  have nearer := h.le (rank + 1)
  rw [abs_of_nonpos (by linarith)] at nearer
  rcases abs_cases ((magnitude (rank + 1) : ℚ) - q) with ⟨eq, -⟩ | ⟨eq, -⟩ <;>
    rw [eq] at nearer <;> linarith

/-- There is one nearest rank only. -/
theorem unique {rank' : Nat} (h : IsNearestRank q rank)
    (h' : IsNearestRank q rank') : rank = rank' :=
  Nat.le_antisymm (Nat.not_lt.1 (h'.not_lt_of_isNearestRank h))
    (Nat.not_lt.1 (h.not_lt_of_isNearestRank h'))

/-- What is not below a magnitude is not rounded below it. -/
theorem le_of_le {least : Nat} (h : IsNearestRank q rank)
    (large : (magnitude least : ℚ) ≤ q) : least ≤ rank := by
  refine Nat.not_lt.1 fun below => ?_
  have order : (magnitude rank : ℚ) < magnitude least := by
    exact_mod_cast strictMono_magnitude below
  have nearer := h.le least
  rw [abs_of_nonpos (by linarith), abs_of_nonpos (by linarith)] at nearer
  linarith

/-- What is not above a magnitude is not rounded above it. -/
theorem le_of_ge {most : Nat} (h : IsNearestRank q rank)
    (small : q ≤ magnitude most) : rank ≤ most := by
  refine Nat.not_lt.1 fun above => ?_
  have order : (magnitude most : ℚ) < magnitude rank := by
    exact_mod_cast strictMono_magnitude above
  have nearer := h.le most
  rw [abs_of_nonneg (by linarith), abs_of_nonneg (by linarith)] at nearer
  linarith

end IsNearestRank

/-- The nearest rank to a magnitude is its own. -/
theorem isNearestRank_magnitude (rank : Nat) :
    IsNearestRank (magnitude rank) rank := by
  intro other ne
  left
  rw [sub_self, abs_zero, abs_pos, sub_ne_zero]
  exact_mod_cast strictMono_magnitude.injective.ne ne

/-- A magnitude is rounded to itself. -/
theorem nearestRank_magnitude (rank : Nat) :
    nearestRank (magnitude rank) 1 = rank := by
  have rounded := isNearestRank_nearestRank (magnitude rank) Nat.one_pos
  rw [Nat.cast_one, div_one] at rounded
  exact rounded.unique (isNearestRank_magnitude rank)

/-- A count of units with at most 53 binary digits before its last zeros is
a magnitude. -/
theorem magnitude_nearestRank_of_dvd {n k : Nat} (dvd : 2 ^ k ∣ n)
    (small : n < 2 ^ (k + 53)) : magnitude (nearestRank n 1) = n := by
  have log := log2_lt_of_lt (by omega) small
  have le : spacing n 1 ≤ k := by
    rw [spacing, Nat.div_one]
    omega
  rw [magnitude_nearestRank]
  obtain ⟨m, eq⟩ := (Nat.pow_dvd_pow 2 le).trans dvd
  generalize spacing n 1 = shift at eq ⊢
  rw [eq, Nat.one_shiftLeft, Nat.mul_comm,
    divHalfEven_mul_right m (Nat.two_pow_pos shift), Nat.shiftLeft_eq]

theorem magnitude_nearestRank_two_pow (k : Nat) :
    magnitude (nearestRank (2 ^ k) 1) = 2 ^ k :=
  magnitude_nearestRank_of_dvd (Nat.dvd_refl _)
    (Nat.pow_lt_pow_right (by decide) (by omega))

/-- A magnitude has at most 53 binary digits before its last zeros. -/
theorem two_pow_dvd_magnitude {rank k : Nat}
    (large : 2 ^ (k + 52) ≤ magnitude rank) : 2 ^ k ∣ magnitude rank := by
  obtain ⟨shift, j, rfl, low, inside⟩ := exists_block rank
  rw [magnitude_block low inside.le, Nat.shiftLeft_eq] at large ⊢
  have digits : 2 ^ (k + 52) < 2 ^ (53 + shift) := by
    rw [Nat.pow_add 2 53]
    refine Nat.lt_of_le_of_lt large ?_
    refine Nat.mul_lt_mul_of_pos_right ?_ (Nat.two_pow_pos shift)
    rwa [blockSize_eq, ← Nat.pow_succ'] at inside
  have exponents := (Nat.pow_lt_pow_iff_right (by decide)).1 digits
  exact (Nat.pow_dvd_pow 2 (by omega)).trans (Nat.dvd_mul_left _ _)

/-- What is not above half a unit is rounded to zero. -/
theorem isNearestRank_zero {q : ℚ} (nonneg : 0 ≤ q) (small : 2 * q < 1) :
    IsNearestRank q 0 := by
  intro other ne
  have unit : (1 : ℚ) ≤ magnitude other := by
    have first := strictMono_magnitude (Nat.pos_of_ne_zero ne)
    rw [magnitude_zero] at first
    exact_mod_cast first
  left
  rw [magnitude_zero, Nat.cast_zero, zero_sub, abs_neg, abs_of_nonneg nonneg]
  exact lt_of_lt_of_le (by linarith) (le_abs_self _)

theorem exists_isNearestRank {q : ℚ} (nonneg : 0 ≤ q) :
    ∃ rank, IsNearestRank q rank := by
  refine ⟨nearestRank q.num.toNat q.den, ?_⟩
  have nearest := isNearestRank_nearestRank q.num.toNat q.den_pos
  have num : ((q.num.toNat : Nat) : ℚ) = q.num := by
    exact_mod_cast Int.toNat_of_nonneg (Rat.num_nonneg.2 nonneg)
  rwa [num, Rat.num_div_den] at nearest

/-! ### The nearest number -/

namespace Binary64

/-- Whether a number is the nearest one with a sign to a value without: the
value is rounded as if magnitudes went on past the largest finite one, and a
rank there means an infinity. -/
def IsNearest (x : Binary64) (negative : Bool) (v : ℚ) : Prop :=
  ∃ rank, x = ofRank negative rank ∧ IsNearestRank (v * unitsPerOne) rank

variable {x y : Binary64} {negative : Bool} {v : ℚ}

theorem IsNearest.unique (h : x.IsNearest negative v)
    (h' : y.IsNearest negative v) : x = y := by
  obtain ⟨rank, rfl, nearest⟩ := h
  obtain ⟨rank', rfl, nearest'⟩ := h'
  rw [nearest.unique nearest']

/-- Values that are very small are nearest to zero. -/
theorem isNearest_zero (nonneg : 0 ≤ v) (small : 2 * (v * unitsPerOne) < 1) :
    (ofRank negative 0).IsNearest negative v :=
  ⟨0, rfl, isNearestRank_zero (mul_nonneg nonneg unitsPerOne_pos.le) small⟩

/-- Values from two to the 1024 up are nearest to infinity. -/
theorem isNearest_infinity (large : 2 ^ 1024 ≤ v) :
    (infinity negative).IsNearest negative v := by
  have nonneg : 0 ≤ v := (pow_nonneg zero_le_two 1024).trans large
  obtain ⟨rank, nearest⟩ :=
    exists_isNearestRank (mul_nonneg nonneg unitsPerOne_pos.le)
  have above : infinityRank ≤ rank := by
    refine nearest.le_of_le ?_
    rw [magnitude_infinityRank, shiftLeft_cast, mul_comm]
    exact mul_le_mul_of_nonneg_right large unitsPerOne_pos.le
  refine ⟨rank, ?_, nearest⟩
  rw [ofRank, dif_neg (Nat.not_lt.2 above)]

end Binary64

end TreebankGrammar
