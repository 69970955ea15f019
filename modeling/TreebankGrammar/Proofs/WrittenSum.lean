/-
TreebankGrammar/Proofs/WrittenSum.lean

Written probabilities sum to one.

All expansions of a tag have the same text as their probability.  The exact
value that this text denotes, taken once for each of them, is one up to little
more than half a millionth, half of what a reader tolerates; and a tag with
more expansions has no larger one (`denotes_uniformProbability`).

Design.  The number of expansions is rounded, its reciprocal is rounded, and
this is rounded once more to seven digits.  The third error is by far the
largest, so the sum of all is hardly more than it.  Each of the three steps
keeps the order or turns it around, and so does the whole.
-/
import TreebankGrammar.Proofs.ScientificForm
import TreebankGrammar.RuleFile.Distribution

namespace TreebankGrammar

/-! ### Denoted values -/

namespace Numeral

/-- Whether a text is a numeral and denotes a value, that of its digits with
its point, its power of ten and its sign. -/
def Denotes (t : Text) (q : ℚ) : Prop :=
  ∃ n : Parts, n.Spells t ∧
    q = Binary64.signFactor n.negative * n.decimal.value

/-- A numeral denotes one value. -/
theorem Parts.Spells.denotes_iff {n : Parts} {t : Text} (h : n.Spells t)
    {q : ℚ} :
    Denotes t q ↔ q = Binary64.signFactor n.negative * n.decimal.value := by
  constructor
  · rintro ⟨n', h', rfl⟩
    rw [h.unique h']
  · exact fun eq => ⟨n, h, eq⟩

end Numeral

namespace Binary64

/-- The text of a number without a minus sign denotes the decimal that is
written. -/
theorem denotes_scientific_finite {rank : Fin infinityRank} {q : ℚ} :
    Numeral.Denotes (finite false rank).scientific q ↔
      q = (writtenDecimal rank).value := by
  obtain ⟨n, sign, spells, decimal⟩ := spells_scientific_decimalOf false
    (writtenDecimal_bounds rank.isLt).1
  rw [scientific_finite, spells.denotes_iff, sign, Numeral.Parts.decimal,
    decimal _ (digitsValue_ofNatPadded _ _), signFactor,
    if_neg Bool.false_ne_true, Int.cast_one, one_mul]

/-! ### Order -/

/-- Larger numbers are not written as smaller decimals. -/
theorem value_writtenDecimal_mono {a b : Fin infinityRank} (le : a ≤ b) :
    (writtenDecimal a).value ≤ (writtenDecimal b).value := by
  by_cases zero : a.val = 0
  · have none : (writtenDecimal a).value = 0 := by
      rw [zero]
      exact Decimal.value_eq_zero rfl
    rw [none]
    exact Decimal.value_nonneg _
  · have zero' : b.val ≠ 0 :=
      Nat.ne_of_gt ((Nat.pos_of_ne_zero zero).trans_le le)
    have order : (magnitude a : ℚ) ≤ magnitude b := by
      exact_mod_cast strictMono_magnitude.monotone le
    exact (isNearest_writtenDecimal zero).mono (isNearest_writtenDecimal zero')
      (div_le_div_of_nonneg_right order unitsPerOne_pos.le)

end Binary64

theorem uniformRank_antitone {m n : Nat} (pos : 0 < m) (le : m ≤ n) :
    uniformRank n ≤ uniformRank m := by
  have order : nearestRank (m * unitsPerOne) 1 ≤
      nearestRank (n * unitsPerOne) 1 :=
    nearestRank_mono Nat.one_pos Nat.one_pos
      (Nat.mul_le_mul_right 1 (Nat.mul_le_mul_right _ le))
  by_cases finite : nearestRank (n * unitsPerOne) 1 < infinityRank
  · rw [uniformRank, uniformRank, if_pos finite,
      if_pos (Nat.lt_of_le_of_lt order finite)]
    have units : ∀ {k}, 0 < k →
        0 < magnitude (nearestRank (k * unitsPerOne) 1) := fun pos =>
      (one_shiftLeft_pos 1074).trans_le (le_magnitude (le_nearestRank_mul pos))
    exact nearestRank_mono (units (pos.trans_le le)) (units pos)
      (Nat.mul_le_mul_left _ (strictMono_magnitude.monotone order))
  · rw [uniformRank, if_neg finite]
    exact Nat.zero_le _

/-- More expansions do not have larger probabilities. -/
theorem uniformProbability_antitone {m n : Nat} (pos : 0 < m) (le : m ≤ n)
    {a b : Fin infinityRank} (ha : uniformProbability m = .finite false a)
    (hb : uniformProbability n = .finite false b) : b ≤ a := by
  rw [uniformProbability_eq_finite pos, Binary64.finite.injEq] at ha
  rw [uniformProbability_eq_finite (pos.trans_le le),
    Binary64.finite.injEq] at hb
  rw [← ha.2, ← hb.2, Fin.mk_le_mk]
  exact uniformRank_antitone pos le

/-! ### The sum -/

/-- The decimal that is written for one of some expansions, as many times as
there are expansions, is nearly one. -/
theorem near_mul_writtenDecimal {n : Nat} (pos : 0 < n) (few : n < 2 ^ 64)
    {rank : Fin infinityRank}
    (h : uniformProbability n = .finite false rank) :
    Near (5001 / 10 ^ 10) (n * (Binary64.writtenDecimal rank).value) 1 := by
  have pos' : (0 : ℚ) < n := by exact_mod_cast pos
  obtain ⟨v, value, near⟩ := near_uniformProbability pos few
  rw [h] at value
  have v_pos : 0 < v := by
    have part : (0 : ℚ) < (1 - 1 / 2 ^ 51) * (1 / n) := by
      apply mul_pos
      · norm_num
      · positivity
    exact part.trans_le near.bounds.1
  have written :=
    Binary64.near_writtenDecimal (Binary64.rank_ne_zero value v_pos)
  rw [Binary64.value?_finite, Binary64.signFactor, if_neg Bool.false_ne_true,
    Int.cast_one, one_mul, Option.some.injEq] at value
  rw [value] at written
  have total := (written.trans near (by positivity)).mul_left pos'.le
  rw [mul_one_div_cancel pos'.ne'] at total
  exact total.mono (by norm_num) one_pos.le

/-- The tolerance of the reader is a millionth. -/
theorem rounds_sumTolerance : sumTolerance.Rounds (1 / 10 ^ 6) := by
  refine Binary64.rounds_nearest (tenTo_pos 6) ?_ ?_
  · rw [tenTo_cast]
    field_simp
  · apply isNormal_of_bounds <;> norm_num

/-- **Written probabilities sum to one.**  The text of the probability of one
of some expansions denotes an exact value.  The sum of this value over all
expansions is one up to little more than half a millionth, hardly more than
half of what the reader tolerates, and no larger number of expansions has a
larger value. -/
theorem denotes_uniformProbability {n : Nat} (pos : 1 ≤ n) (few : n < 2 ^ 64) :
    ∃ q, (∀ p, Numeral.Denotes (uniformProbability n).scientific p ↔ p = q) ∧
      |n * q - 1| ≤ 5001 / 10 ^ 10 ∧
      (∃ tolerance, sumTolerance.value? = some tolerance ∧
        |n * q - 1| ≤ 5002 / 10 ^ 4 * tolerance) ∧
      ∀ m p, n ≤ m →
        Numeral.Denotes (uniformProbability m).scientific p → p ≤ q := by
  obtain ⟨rank, eq⟩ := uniformProbability_eq pos
  have sum := near_mul_writtenDecimal pos few eq
  rw [Near, mul_one] at sum
  rw [eq]
  refine ⟨_, fun p => Binary64.denotes_scientific_finite, sum, ?_, ?_⟩
  · obtain ⟨tolerance, value, near⟩ := rounds_sumTolerance
    refine ⟨tolerance, value, sum.trans ?_⟩
    have low := near.bounds.1
    norm_num at low ⊢
    linarith
  · intro m p le denotes
    obtain ⟨rank', eq'⟩ := uniformProbability_eq (pos.trans le)
    rw [eq'] at denotes
    rw [Binary64.denotes_scientific_finite.1 denotes]
    exact Binary64.value_writtenDecimal_mono
      (uniformProbability_antitone pos le eq eq')

/-- The probability of one of 9999995 expansions lies hardly above the middle
of two decimals, so the sum is off nearly as far as it can be. -/
theorem denotes_uniformProbability_carry :
    (uniformProbability 9999995).scientific = "1.000001e-07".toList ∧
      ∃ q, (∀ p, Numeral.Denotes "1.000001e-07".toList p ↔ p = q) ∧
        |(9999995 : Nat) * q - 1| ≤ 5001 / 10 ^ 10 := by
  have text : (uniformProbability 9999995).scientific =
      "1.000001e-07".toList := by decide +kernel
  obtain ⟨q, denotes, sum, -⟩ :=
    denotes_uniformProbability (n := 9999995) (by decide) (by decide)
  rw [text] at denotes
  exact ⟨text, q, denotes, sum⟩

end TreebankGrammar
