/-
TreebankGrammar/Proofs/Rounding.lean

What rounding to a rank does.

The magnitudes near a quotient are evenly spaced.  Rounding gives the
multiple of their spacing that is nearest to the quotient
(`magnitude_nearestRank`), and never changes the order of two quotients
(`nearestRank_mono`).

Design.  The first magnitude of a block is a multiple of the spacing of the
block before it too, so a quotient that is rounded up to it needs no case of
its own: all rests on the bounds of `spacing_spec`.
-/
import Mathlib.Algebra.Order.Ring.Nat
import Mathlib.Tactic.Positivity
import Mathlib.Tactic.Ring
import Mathlib.Tactic.SplitIfs
import TreebankGrammar.Number.Binary64

namespace TreebankGrammar

/-! ### Powers of two -/

theorem log2_mono {m n : Nat} (h : m ≤ n) : m.log2 ≤ n.log2 := by
  by_cases zero : m = 0
  · rw [zero, Nat.log2_zero]
    exact Nat.zero_le _
  · have pos : n ≠ 0 := fun e => zero (Nat.le_zero.1 (e ▸ h))
    exact (Nat.le_log2 pos).2 (Nat.le_trans (Nat.log2_self_le zero) h)

theorem shiftLeft_mono {m n a b : Nat} (h : m ≤ n) (h' : a ≤ b) :
    m <<< a ≤ n <<< b := by
  rw [Nat.shiftLeft_eq, Nat.shiftLeft_eq]
  exact Nat.mul_le_mul h (Nat.pow_le_pow_right (by decide) h')

theorem shiftLeft_eq_mul (n k : Nat) : n <<< k = n * 1 <<< k := by
  rw [Nat.shiftLeft_eq, Nat.shiftLeft_eq, Nat.one_mul]

theorem one_shiftLeft_pos (n : Nat) : 0 < 1 <<< n := by
  rw [Nat.one_shiftLeft]
  exact Nat.two_pow_pos n

theorem log2_one_shiftLeft (n : Nat) : (1 <<< n).log2 = n := by
  rw [Nat.one_shiftLeft]
  exact Nat.log2_two_pow

theorem blockSize_eq : blockSize = 2 ^ 52 := Nat.one_shiftLeft 52

theorem blockSize_pos : 0 < blockSize := one_shiftLeft_pos 52

theorem unitsPerOne_eq : unitsPerOne = blockSize <<< 1022 :=
  Nat.shiftLeft_add 1 52 1022

theorem log2_unitsPerOne : unitsPerOne.log2 = 1074 :=
  log2_one_shiftLeft 1074

/-- Rounding gives the integer part of a quotient or the next integer. -/
theorem divHalfEven_bounds (num den : Nat) :
    num / den ≤ divHalfEven num den ∧
      divHalfEven num den ≤ num / den + 1 := by
  have odd : num / den % 2 < 2 := Nat.mod_lt _ (by decide)
  simp only [divHalfEven]
  split
  · omega
  · split <;> omega

theorem infinityRank_pos : 0 < infinityRank :=
  Nat.mul_pos (by decide) blockSize_pos

theorem magnitude_zero : magnitude 0 = 0 := if_pos blockSize_pos

/-! ### The spacing of magnitudes -/

/-- The spacing of the magnitudes near a quotient is two to this power. -/
def spacing (num den : Nat) : Nat := (num / den).log2 - 52

theorem shiftLeft_pos {n : Nat} (h : 0 < n) (k : Nat) : 0 < n <<< k := by
  rw [Nat.shiftLeft_eq]
  positivity

theorem log2_lt_of_lt {n k : Nat} (pos : 0 < k) (h : n < 2 ^ k) :
    n.log2 < k := by
  by_cases zero : n = 0
  · rwa [zero, Nat.log2_zero]
  · exact (Nat.log2_lt zero).2 h

theorem nearestRank_eq (num den : Nat) :
    nearestRank num den = spacing num den * blockSize +
      divHalfEven num (den <<< spacing num den) := rfl

/-- On its spacing a quotient is in the second half of a block or beyond the
first two. -/
theorem spacing_spec (num den : Nat) :
    divHalfEven num (den <<< spacing num den) ≤ 2 * blockSize ∧
      (spacing num den = 0 ∨
        blockSize ≤ divHalfEven num (den <<< spacing num den)) := by
  have rounded := divHalfEven_bounds num (den <<< spacing num den)
  have split : num / den <<< spacing num den =
      num / den / 2 ^ spacing num den := by
    rw [Nat.shiftLeft_eq, Nat.div_div_eq_div_mul]
  rw [split] at rounded
  constructor
  · have below : num / den / 2 ^ spacing num den < 2 * blockSize := by
      rw [Nat.div_lt_iff_lt_mul (Nat.two_pow_pos _)]
      calc num / den
          < 2 ^ ((num / den).log2 + 1) := Nat.lt_log2_self
        _ ≤ 2 ^ (53 + spacing num den) :=
            Nat.pow_le_pow_right (by decide) (by rw [spacing]; omega)
        _ = 2 * blockSize * 2 ^ spacing num den := by
            rw [Nat.pow_add, blockSize_eq, ← Nat.pow_succ']
    omega
  · rcases Nat.eq_zero_or_pos (spacing num den) with zero | pos
    · exact .inl zero
    · right
      have log : (num / den).log2 = 52 + spacing num den := by
        rw [spacing] at pos ⊢
        omega
      have ne : num / den ≠ 0 := by
        intro zero
        rw [zero, Nat.log2_zero] at log
        omega
      have above : blockSize ≤ num / den / 2 ^ spacing num den := by
        rw [Nat.le_div_iff_mul_le (Nat.two_pow_pos _), blockSize_eq,
          ← Nat.pow_add, ← log]
        exact Nat.log2_self_le ne
      omega

/-- A rank is at most two blocks above the spacing near its quotient. -/
theorem nearestRank_le (num den : Nat) :
    nearestRank num den ≤ (spacing num den + 2) * blockSize := by
  have rounded := (spacing_spec num den).1
  rw [nearestRank_eq, Nat.add_mul]
  omega

/-- The magnitudes of a block, the first one of the next included, are the
multiples of its spacing. -/
theorem magnitude_block {shift k : Nat} (low : shift = 0 ∨ blockSize ≤ k)
    (high : k ≤ 2 * blockSize) :
    magnitude (shift * blockSize + k) = k <<< shift := by
  have pos := blockSize_pos
  have div : ∀ {n r}, r < blockSize → (n * blockSize + r) / blockSize = n := by
    intro n r lt
    rw [Nat.mul_comm, Nat.mul_add_div pos, Nat.div_eq_of_lt lt, Nat.add_zero]
  have mod : ∀ {n r}, r < blockSize → (n * blockSize + r) % blockSize = r := by
    intro n r lt
    rw [Nat.mul_comm, Nat.mul_add_mod, Nat.mod_eq_of_lt lt]
  have later : ∀ {n r}, r < blockSize →
      magnitude ((n + 1) * blockSize + r) = (blockSize + r) <<< n := by
    intro n r lt
    have high : ¬ (n + 1) * blockSize + r < blockSize := by
      rw [Nat.add_mul]
      omega
    rw [magnitude, if_neg high, div lt, mod lt, Nat.add_sub_cancel]
  rcases Nat.lt_or_ge k blockSize with first | rest
  · -- the first block has spacing one
    obtain rfl : shift = 0 := by omega
    rw [Nat.zero_mul, Nat.zero_add, magnitude, if_pos first]
    rfl
  · rcases Nat.lt_or_ge k (2 * blockSize) with inside | last
    · have cut : shift * blockSize + k =
          (shift + 1) * blockSize + (k - blockSize) := by
        rw [Nat.add_mul]
        omega
      rw [cut, later (by omega), Nat.add_sub_cancel' rest]
    · -- the first magnitude of the next block
      obtain rfl : k = 2 * blockSize := by omega
      have cut : shift * blockSize + 2 * blockSize =
          (shift + 1 + 1) * blockSize + 0 := by ring
      rw [cut, later pos, Nat.shiftLeft_eq, Nat.shiftLeft_eq, Nat.pow_succ]
      ring

/-- **What rounding gives**: the rounded quotient on its spacing. -/
theorem magnitude_nearestRank (num den : Nat) :
    magnitude (nearestRank num den) =
      divHalfEven num (den <<< spacing num den) <<< spacing num den :=
  magnitude_block (spacing_spec num den).2 (spacing_spec num den).1

/-! ### The order of quotients -/

section Order

variable {num den num' den' : Nat}

theorem div_le_div_of_mul_le (pos : 0 < den) (pos' : 0 < den')
    (h : num * den' ≤ num' * den) : num / den ≤ num' / den' := by
  rw [Nat.le_div_iff_mul_le pos']
  refine Nat.le_of_mul_le_mul_right ?_ pos
  calc num / den * den' * den = num / den * den * den' := by ring
    _ ≤ num * den' := Nat.mul_le_mul_right _ (Nat.div_mul_le_self num den)
    _ ≤ num' * den := h

theorem divHalfEven_mono (pos : 0 < den) (pos' : 0 < den')
    (h : num * den' ≤ num' * den) :
    divHalfEven num den ≤ divHalfEven num' den' := by
  have parts := div_le_div_of_mul_le pos pos' h
  rcases Nat.lt_or_eq_of_le parts with lt | eq
  · have first := (divHalfEven_bounds num den).2
    have second := (divHalfEven_bounds num' den').1
    omega
  · -- with the same integer part the remainders decide
    have rest : num % den * den' ≤ num' % den' * den := by
      have e := Nat.div_add_mod num den
      have e' := Nat.div_add_mod num' den'
      rw [← e, ← e', eq] at h
      have cut : den' * (num' / den') * den = den * (num' / den') * den' := by
        ring
      rw [Nat.add_mul, Nat.add_mul, cut] at h
      omega
    have up : den < 2 * (num % den) → den' < 2 * (num' % den') := by
      intro lt
      refine Nat.lt_of_mul_lt_mul_right (a := den) ?_
      calc den' * den < 2 * (num % den) * den' := by
            rw [Nat.mul_comm]
            exact Nat.mul_lt_mul_of_pos_right lt pos'
        _ ≤ 2 * (num' % den') * den := by
            rw [Nat.mul_assoc, Nat.mul_assoc]
            exact Nat.mul_le_mul_left 2 rest
    have tie : den ≤ 2 * (num % den) → den' ≤ 2 * (num' % den') := by
      intro le
      refine Nat.le_of_mul_le_mul_right ?_ pos
      calc den' * den ≤ 2 * (num % den) * den' := by
            rw [Nat.mul_comm]
            exact Nat.mul_le_mul_right _ le
        _ ≤ 2 * (num' % den') * den := by
            rw [Nat.mul_assoc, Nat.mul_assoc]
            exact Nat.mul_le_mul_left 2 rest
    simp only [divHalfEven, eq]
    split_ifs <;> omega

/-- Rounding keeps the order of quotients. -/
theorem nearestRank_mono (pos : 0 < den) (pos' : 0 < den')
    (h : num * den' ≤ num' * den) :
    nearestRank num den ≤ nearestRank num' den' := by
  have parts := div_le_div_of_mul_le pos pos' h
  have steps : spacing num den ≤ spacing num' den' :=
    Nat.sub_le_sub_right (log2_mono parts) 52
  rw [nearestRank_eq, nearestRank_eq]
  rcases Nat.lt_or_eq_of_le steps with lt | eq
  · -- a later block
    have first := (spacing_spec num den).1
    have second := (spacing_spec num' den').2.resolve_left (by omega)
    calc spacing num den * blockSize +
          divHalfEven num (den <<< spacing num den)
        ≤ spacing num den * blockSize + 2 * blockSize := by omega
      _ = (spacing num den + 1) * blockSize + blockSize := by ring
      _ ≤ spacing num' den' * blockSize +
            divHalfEven num' (den' <<< spacing num' den') :=
          Nat.add_le_add (Nat.mul_le_mul_right _ lt) second
  · rw [eq]
    refine Nat.add_le_add_left (divHalfEven_mono (shiftLeft_pos pos _)
      (shiftLeft_pos pos' _) ?_) _
    rw [Nat.shiftLeft_eq, Nat.shiftLeft_eq, ← Nat.mul_assoc, ← Nat.mul_assoc]
    exact Nat.mul_le_mul_right _ h

end Order

end TreebankGrammar
