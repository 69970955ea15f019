/-
TreebankGrammar/Proofs/ProbabilityText.lean

Written probabilities are read back.

The probability of each of a positive number of expansions is a finite
number without a minus sign (`uniformProbability_eq`), however large the
number is: a number too large for a finite magnitude has the reciprocal
zero.  The text of such a probability has the shape of a numeral, so the
reader of rule files takes it (`probability?_scientific`).

Design.  The first part needs bounds on ranks only.  All numbers from one up
have ranks from that of one up, their magnitudes are at least one again, and
quotients of one by them are at most one, which is far below the rank of
infinity.
-/
import Mathlib.Data.List.Basic
import TreebankGrammar.Proofs.NumeralReading
import TreebankGrammar.Proofs.Rounding
import TreebankGrammar.Proofs.Words
import TreebankGrammar.RuleFile.Writer

namespace TreebankGrammar

/-! ### Bounds on ranks -/

/-- One is the first magnitude of its block. -/
theorem nearestRank_unitsPerOne :
    nearestRank unitsPerOne 1 = 1023 * blockSize := by
  have step : spacing unitsPerOne 1 = 1022 := by
    rw [spacing, Nat.div_one, log2_unitsPerOne]
  have whole : unitsPerOne = blockSize * 1 <<< 1022 :=
    unitsPerOne_eq.trans (shiftLeft_eq_mul _ _)
  rw [nearestRank_eq, step]
  nth_rewrite 1 [whole]
  rw [divHalfEven_mul_right _ (one_shiftLeft_pos 1022), ← Nat.succ_mul]

/-- The rank of one is finite. -/
theorem nearestRank_unitsPerOne_lt :
    nearestRank unitsPerOne 1 < infinityRank := by
  rw [nearestRank_unitsPerOne]
  exact Nat.mul_lt_mul_of_pos_right (by decide) blockSize_pos

theorem zero_eq : Binary64.zero = .finite false ⟨0, infinityRank_pos⟩ := by
  have rank : nearestRank (0 * unitsPerOne) 1 = 0 := by
    simp [nearestRank, divHalfEven]
  rw [Binary64.zero, Binary64.ofNat, Binary64.nearest, rank, Binary64.ofRank,
    dif_pos infinityRank_pos]

/-- Numbers from one up have ranks from that of one up. -/
theorem le_nearestRank {n : Nat} (h : unitsPerOne ≤ n) :
    1023 * blockSize ≤ nearestRank n 1 := by
  rw [← nearestRank_unitsPerOne]
  exact nearestRank_mono Nat.one_pos Nat.one_pos (Nat.mul_le_mul_right 1 h)

/-- Ranks from that of one up have magnitudes from one up. -/
theorem le_magnitude {rank : Nat} (h : 1023 * blockSize ≤ rank) :
    unitsPerOne ≤ magnitude rank := by
  have block : 1023 ≤ rank / blockSize :=
    (Nat.le_div_iff_mul_le blockSize_pos).2 h
  have high : ¬ rank < blockSize := by omega
  rw [magnitude, if_neg high, unitsPerOne_eq]
  exact shiftLeft_mono (Nat.le_add_right _ _) (by omega)

/-- The quotient of one by a magnitude from one up is finite. -/
theorem nearestRank_lt_infinityRank {units : Nat}
    (h : unitsPerOne ≤ units) :
    nearestRank (unitsPerOne * unitsPerOne) units < infinityRank := by
  have pos : 0 < units := Nat.lt_of_lt_of_le (one_shiftLeft_pos 1074) h
  have quotient : unitsPerOne * unitsPerOne * 1 ≤ unitsPerOne * units := by
    rw [Nat.mul_one]
    exact Nat.mul_le_mul_left _ h
  calc nearestRank (unitsPerOne * unitsPerOne) units
      ≤ nearestRank unitsPerOne 1 := nearestRank_mono pos Nat.one_pos quotient
    _ < infinityRank := nearestRank_unitsPerOne_lt

/-- The rank of the probability of one of some expansions: that of the
reciprocal of their rounded number.  A number too large has the reciprocal
zero. -/
def uniformRank (count : Nat) : Nat :=
  if nearestRank (count * unitsPerOne) 1 < infinityRank then
    nearestRank (unitsPerOne * unitsPerOne)
      (magnitude (nearestRank (count * unitsPerOne) 1))
  else 0

/-- The rank of a positive number. -/
theorem le_nearestRank_mul {count : Nat} (h : 0 < count) :
    1023 * blockSize ≤ nearestRank (count * unitsPerOne) 1 :=
  le_nearestRank (Nat.le_mul_of_pos_left _ h)

theorem uniformRank_lt {count : Nat} (h : 0 < count) :
    uniformRank count < infinityRank := by
  rw [uniformRank]
  split
  · exact nearestRank_lt_infinityRank (le_magnitude (le_nearestRank_mul h))
  · exact infinityRank_pos

theorem uniformProbability_eq_finite {count : Nat} (h : 0 < count) :
    uniformProbability count =
      .finite false ⟨uniformRank count, uniformRank_lt h⟩ := by
  have whole : uniformProbability count =
      .ofRank false (uniformRank count) := by
    rw [uniformProbability, Binary64.ofNat, Binary64.nearest, Binary64.ofRank,
      uniformRank]
    split
    · have pos : 0 < nearestRank (count * unitsPerOne) 1 :=
        (Nat.mul_pos (by decide) blockSize_pos).trans_le (le_nearestRank_mul h)
      rw [Binary64.reciprocal, if_neg (Nat.ne_of_gt pos), Binary64.nearest]
    · rfl
  rw [whole]
  exact dif_pos (uniformRank_lt h)

/-- **The probability of one of some expansions** is a finite number without
a minus sign. -/
theorem uniformProbability_eq {count : Nat} (h : 0 < count) :
    ∃ rank, uniformProbability count = .finite false rank :=
  ⟨_, uniformProbability_eq_finite h⟩

/-! ### Digits -/

theorem isDigit_of_mem_ofNatPadded {width n : Nat} {c : Char}
    (m : c ∈ Text.ofNatPadded width n) : c.isDigit = true := by
  rw [Text.ofNatPadded, List.leftpad] at m
  rcases List.mem_append.1 m with zero | digit
  · rw [List.eq_of_mem_replicate zero]
    rfl
  · exact Nat.isDigit_of_mem_toDigits (by decide) (by decide) digit

theorem ofNatPadded_ne_nil (width n : Nat) : Text.ofNatPadded width n ≠ [] := by
  rw [Text.ofNatPadded, List.leftpad]
  exact List.append_ne_nil_of_right_ne_nil _ Nat.toDigits_ne_nil

/-! ### The text of a probability -/

/-- The shape of a number in scientific form: its digits with a point after
the first, and its power with a sign. -/
theorem scientific_shape (d : Decimal) :
    ∃ (whole fraction power : Text) (sign : Char),
      d.scientific = whole ++ '.' :: (fraction ++ 'e' :: sign :: power) ∧
      whole ≠ [] ∧ power ≠ [] ∧ (sign = '-' ∨ sign = '+') ∧
      (∀ c ∈ whole, c.isDigit = true) ∧ (∀ c ∈ fraction, c.isDigit = true) ∧
      (∀ c ∈ power, c.isDigit = true) ∧
      whole ++ fraction = Text.ofNatPadded 7 d.coefficient ∧
      whole.length = 1 ∧ (sign = '-' ↔ d.exponent + 6 < 0) ∧
      power = Text.ofNatPadded 2 (d.exponent + 6).natAbs := by
  refine ⟨(Text.ofNatPadded 7 d.coefficient).take 1,
    (Text.ofNatPadded 7 d.coefficient).drop 1,
    Text.ofNatPadded 2 (d.exponent + 6).natAbs,
    if d.exponent + 6 < 0 then '-' else '+', by simp [Decimal.scientific],
    ?_, ofNatPadded_ne_nil _ _, ite_eq_or_eq _ _ _, ?_, ?_, ?_,
    List.take_append_drop _ _, ?_, by simp, rfl⟩
  · simpa using ofNatPadded_ne_nil 7 d.coefficient
  · exact fun c m => isDigit_of_mem_ofNatPadded (List.mem_of_mem_take m)
  · exact fun c m => isDigit_of_mem_ofNatPadded (List.mem_of_mem_drop m)
  · exact fun c m => isDigit_of_mem_ofNatPadded m
  · rw [List.length_take_of_le]
    exact List.length_pos_of_ne_nil (ofNatPadded_ne_nil 7 d.coefficient)

/-- The text of a sign is a sign. -/
theorem isSign_signText (negative : Bool) :
    Numeral.IsSign (Binary64.signText negative) negative := by
  cases negative with
  | false => exact .none
  | true => exact .minus

/-- A text of this shape with a sign before it is a numeral. -/
theorem spells_shape (negative : Bool) {whole fraction power : Text}
    {sign : Char} (whole_ne : whole ≠ []) (power_ne : power ≠ [])
    (hs : sign = '-' ∨ sign = '+') (hw : ∀ c ∈ whole, c.isDigit = true)
    (hf : ∀ c ∈ fraction, c.isDigit = true)
    (hp : ∀ c ∈ power, c.isDigit = true) :
    Numeral.Parts.Spells
      ⟨negative, whole, fraction, some (decide (sign = '-'), power)⟩
      (Binary64.signText negative ++
        (whole ++ '.' :: (fraction ++ 'e' :: sign :: power))) := by
  have isSign : Numeral.IsSign [sign] (decide (sign = '-')) := by
    rcases hs with rfl | rfl
    · exact .minus
    · exact .plus
  refine ⟨Binary64.signText negative, whole ++ '.' :: fraction,
    'e' :: ([sign] ++ power), ?_, isSign_signText negative,
    .point ⟨whole_ne, hw⟩ hf, .marked (.inl rfl) isSign ⟨power_ne, hp⟩⟩
  simp

/-- A number in scientific form is a numeral without a minus sign. -/
theorem spells_scientific (d : Decimal) :
    ∃ n : Numeral.Parts, n.negative = false ∧ n.Spells d.scientific := by
  obtain ⟨whole, fraction, power, sign, shape, whole_ne, power_ne, hs, hw, hf,
    hp, -⟩ := scientific_shape d
  rw [shape]
  exact ⟨_, rfl, spells_shape false whole_ne power_ne hs hw hf hp⟩

theorem parse?_scientific (d : Decimal) :
    ∃ decimal, Numeral.parse? d.scientific = some ⟨false, decimal⟩ := by
  obtain ⟨n, sign, spells⟩ := spells_scientific d
  refine ⟨n.decimalRead, Numeral.parse?_eq_some_iff.2 ⟨n, spells, ?_⟩⟩
  rw [sign]

/-- No character of numerals is blank. -/
theorem not_isBlank_of_isNumeralChar {c : Char}
    (h : isNumeralChar c = true) : isBlank c = false := by
  simp only [isNumeralChar, Bool.or_eq_true, beq_iff_eq] at h
  rcases h with ((((digit | rfl) | rfl) | rfl) | rfl) | rfl
  · have range : 48 ≤ c.toNat ∧ c.toNat ≤ 57 := by
      simpa [Char.isDigit, UInt32.le_iff_toNat_le] using digit
    simp only [isBlank, inRanges, blankRanges, List.any_cons, List.any_nil,
      Bool.or_false, Bool.or_eq_false_iff, Bool.and_eq_false_iff,
      decide_eq_false_iff_not]
    omega
  all_goals decide

theorem Numeral.Parts.Spells.isToken {n : Numeral.Parts} {t : Text}
    (h : n.Spells t) : Text.IsToken t where
  ne_nil := h.ne_nil
  not_blank c m := not_isBlank_of_isNumeralChar (h.forall_isNumeralChar c m)

theorem isToken_scientific (d : Decimal) : Text.IsToken d.scientific := by
  obtain ⟨n, -, spells⟩ := spells_scientific d
  exact spells.isToken

theorem looksNumeric_scientific (d : Decimal) :
    looksNumeric d.scientific = true := by
  obtain ⟨n, -, spells⟩ := spells_scientific d
  exact spells.looksNumeric

/-- Zero is the origin of the line. -/
theorem place?_zero : Binary64.zero.place? = some 0 := by
  rw [zero_eq]
  rfl

/-- No number without a minus sign lies below zero. -/
theorem not_lt_zero (rank : Nat) :
    (Binary64.ofRank false rank).lt Binary64.zero = false := by
  have place : ∃ n : Nat,
      (Binary64.ofRank false rank).place? = some (n : Int) := by
    rw [Binary64.ofRank]
    split
    · exact ⟨rank, rfl⟩
    · exact ⟨infinityRank, rfl⟩
  obtain ⟨n, place⟩ := place
  simp [Binary64.lt, place, place?_zero]

/-- **The text of a probability** is a word, and is read as a probability. -/
theorem probability?_scientific {count : Nat} (h : 0 < count) :
    (uniformProbability count).scientific.IsToken ∧
      ∃ p, WeightedRule.probability? (uniformProbability count).scientific =
        .ok p := by
  obtain ⟨rank, eq⟩ := uniformProbability_eq h
  obtain ⟨d, text⟩ : ∃ d : Decimal,
      (uniformProbability count).scientific = d.scientific :=
    ⟨_, by rw [eq]; rfl⟩
  rw [text]
  refine ⟨isToken_scientific d, ?_⟩
  obtain ⟨decimal, parsed⟩ := parse?_scientific d
  refine ⟨(⟨false, decimal⟩ : Numeral).value, ?_⟩
  rw [WeightedRule.probability?, if_pos (looksNumeric_scientific d), parsed]
  simp only [Numeral.value, not_lt_zero, Bool.false_eq_true, if_false]

end TreebankGrammar
