/-
TreebankGrammar/Proofs/NumeralValue.lean

The value of a numeral is the nearest number.

A numeral denotes a decimal, and its value is the number nearest to it
(`isNearest_value`, `isNearest_of_spells`).  Two things stand between the two.
The exponent of a decimal is brought into a range before it is rounded, and
the power of ten of a long numeral may not be read to its end.

Design.  Both are harmless for one reason: what happens to the exponent leaves
the value either above two to the 1024 or below a quarter of a unit, where it
was before, and all values there have one nearest number
(`IsNearest.of_large`, `IsNearest.of_small`).
-/
import TreebankGrammar.Proofs.DecimalPrecision
import TreebankGrammar.Proofs.NumeralReading

namespace TreebankGrammar

/-! ### Values far out -/

namespace Binary64.IsNearest

variable {x : Binary64} {negative : Bool} {v w : ℚ}

/-- All values from two to the 1024 up have the same nearest number. -/
theorem of_large (h : x.IsNearest negative v) (hv : 2 ^ 1024 ≤ v)
    (hw : 2 ^ 1024 ≤ w) : x.IsNearest negative w := by
  rw [h.unique (isNearest_infinity hv)]
  exact isNearest_infinity hw

/-- All values below half a unit have the same nearest number. -/
theorem of_small (h : x.IsNearest negative v) (hv : 0 ≤ v)
    (small : 2 * (v * unitsPerOne) < 1) (hw : 0 ≤ w)
    (small' : 2 * (w * unitsPerOne) < 1) : x.IsNearest negative w := by
  rw [h.unique (isNearest_zero hv small)]
  exact isNearest_zero hw small'

end Binary64.IsNearest

namespace Decimal

variable {d : Decimal}

theorem value_nonneg (d : Decimal) : 0 ≤ d.value := by
  rw [value]
  positivity

/-- A positive decimal with a large exponent is large. -/
theorem large_of_exponent (pos : 0 < d.coefficient) (h : 309 ≤ d.exponent) :
    2 ^ 1024 ≤ d.value := by
  have two : (2 : ℚ) ^ 1024 ≤ 10 ^ (309 : ℤ) := by
    have nat : ((1 <<< 1024 : Nat) : ℚ) ≤ tenTo 309 := by
      exact_mod_cast two_pow_le_tenTo
    rw [shiftLeft_cast, Nat.cast_one, one_mul, tenTo_cast] at nat
    exact_mod_cast nat
  have ten : (10 : ℚ) ^ (309 : ℤ) ≤ 10 ^ d.exponent :=
    zpow_le_zpow_right₀ (by norm_num) h
  have one : (1 : ℚ) ≤ d.coefficient := by exact_mod_cast pos
  calc (2 : ℚ) ^ 1024 ≤ 10 ^ d.exponent := two.trans ten
    _ ≤ d.coefficient * 10 ^ d.exponent :=
      le_mul_of_one_le_left (by positivity) one

/-- A decimal whose first digit is far behind the point is small. -/
theorem small_of_exponent {digits : Nat} (few : d.coefficient < 10 ^ digits)
    (h : d.exponent + digits ≤ -331) : 2 * (d.value * unitsPerOne) < 1 := by
  have units : (unitsPerOne : ℚ) ≤ 10 ^ (330 : ℤ) := by
    have nat : (unitsPerOne : ℚ) ≤ tenTo 330 := by
      exact_mod_cast unitsPerOne_le_tenTo
    rw [tenTo_cast] at nat
    exact_mod_cast nat
  have below : d.value ≤ 10 ^ (-331 : ℤ) := by
    have coefficient : (d.coefficient : ℚ) ≤ 10 ^ (digits : ℤ) := by
      rw [zpow_natCast]
      exact_mod_cast few.le
    calc d.value ≤ 10 ^ (digits : ℤ) * 10 ^ d.exponent :=
          mul_le_mul_of_nonneg_right coefficient (by positivity)
      _ = 10 ^ (d.exponent + digits) := by
        rw [add_comm, zpow_add₀ (by norm_num)]
      _ ≤ 10 ^ (-331 : ℤ) := zpow_le_zpow_right₀ (by norm_num) h
  have product : d.value * unitsPerOne ≤ 10 ^ (-331 : ℤ) * 10 ^ (330 : ℤ) :=
    mul_le_mul below units unitsPerOne_pos.le (by positivity)
  rw [← zpow_add₀ (by norm_num)] at product
  norm_num at product
  linarith

theorem value_eq_zero (h : d.coefficient = 0) : d.value = 0 := by
  rw [value, h, Nat.cast_zero, zero_mul]

/-! ### Decimals -/

/-- The rank of a decimal is the nearest. -/
theorem isNearestRank_rank (d : Decimal) :
    IsNearestRank (d.value * unitsPerOne) d.rank := by
  obtain ⟨num, den, pos, rank, exact⟩ := d.exists_quotient
  rw [rank, ← exact]
  exact isNearestRank_nearestRank num pos

/-- The rank of a decimal is that of the nearest number. -/
theorem isNearest_rank (d : Decimal) (negative : Bool) :
    (Binary64.ofRank negative d.rank).IsNearest negative d.value :=
  ⟨d.rank, rfl, d.isNearestRank_rank⟩

/-- Bringing the exponent into range leaves the nearest number. -/
theorem isNearest_clamp (d : Decimal) (negative : Bool) :
    (Binary64.ofRank negative d.clamp.rank).IsNearest negative d.value := by
  have clamped := d.clamp.isNearest_rank negative
  rcases Nat.eq_zero_or_pos d.coefficient with zero | pos
  · rw [value_eq_zero (d := d) zero]
    rwa [value_eq_zero (d := d.clamp) zero] at clamped
  · have few : d.coefficient < 10 ^ (d.coefficient.log2 + 1) :=
      Nat.lt_log2_self.trans_le (Nat.pow_le_pow_left (by decide) _)
    have exponent : d.clamp.exponent =
        max (-(400 + d.coefficient.log2 : Nat) : Int) (min 400 d.exponent) :=
      rfl
    rcases lt_or_ge 400 d.exponent with above | high
    · -- the exponent is lowered, and the decimal stays large
      refine clamped.of_large (large_of_exponent pos ?_)
        (large_of_exponent pos (by omega))
      omega
    · rcases lt_or_ge d.exponent (-(400 + d.coefficient.log2 : Nat) : Int) with
        below | low
      · -- the exponent is raised, and the decimal stays small
        have few' : d.clamp.coefficient < 10 ^ (d.coefficient.log2 + 1) := few
        refine clamped.of_small d.clamp.value_nonneg
          (small_of_exponent few' ?_) d.value_nonneg (small_of_exponent few ?_)
        · omega
        · omega
      · rwa [clamp_eq low high] at clamped ⊢

end Decimal

namespace Numeral

/-! ### Digits -/

/-- Digits after a number make less than the next one with as many
zeros. -/
theorem ofDigitChars_lt {t : Text} (h : ∀ c ∈ t, c.isDigit = true) (n : Nat) :
    Nat.ofDigitChars 10 t n < (n + 1) * 10 ^ t.length := by
  induction t generalizing n with
  | nil => simp
  | cons c t ih =>
    have digit : c.toNat - '0'.toNat ≤ 9 := by
      obtain ⟨-, most⟩ := Char.isDigit_iff_toNat.1 (h c List.mem_cons_self)
      exact Nat.sub_le_sub_right most _
    have rest := ih (fun d m => h d (List.mem_cons_of_mem _ m))
      (10 * n + (c.toNat - '0'.toNat))
    rw [Nat.ofDigitChars_cons, List.length_cons, Nat.pow_succ',
      ← Nat.mul_assoc]
    exact rest.trans_le (Nat.mul_le_mul_right _ (by omega))

theorem digitsValue_lt {t : Text} (h : ∀ c ∈ t, c.isDigit = true) :
    digitsValue t < 10 ^ t.length := by
  simpa [digitsValue] using ofDigitChars_lt h 0

/-- A power of ten above the limit is read as one above the limit, even if it
is not read to its end. -/
theorem lt_powerValue {t : Text} (h : powerLimit < digitsValue t) :
    powerLimit < powerValue t := by
  have fold : ∀ (t : Text) n, powerLimit < Nat.ofDigitChars 10 t n →
      powerLimit < t.foldl (fun n c => if n ≤ powerLimit then
        10 * n + (c.toNat - '0'.toNat) else n) n := by
    intro t
    -- the limit is passed at some digit, and what is read stays above it
    induction t with
    | nil => exact fun n lt => lt
    | cons c t ih =>
      intro n lt
      rw [List.foldl_cons]
      split
      · rw [Nat.ofDigitChars_cons] at lt
        exact ih _ lt
      · -- nothing more is read
        rename_i exceeds
        exact ih n ((Nat.lt_of_not_le exceeds).trans_le (le_ofDigitChars t n))
  exact fold t 0 h

/-! ### Numerals -/

/-- **The value of a numeral** is the number nearest to its decimal. -/
theorem isNearest_value (n : Numeral) :
    n.value.IsNearest n.negative n.decimal.value :=
  n.decimal.isNearest_clamp n.negative

namespace Parts

variable {n : Parts} {t : Text}

/-- A power of ten above the limit makes a numeral that is not very long
large. -/
theorem Spells.large {negative : Bool} {whole fraction power : Text}
    (spells : Spells ⟨negative, whole, fraction, some (false, power)⟩ t)
    (few : t.length < 65000) (pos : 0 < digitsValue (whole ++ fraction))
    {valueOf : Text → Nat} (exceeds : powerLimit < valueOf power) :
    2 ^ 1024 ≤ (decimalOf ⟨negative, whole, fraction, some (false, power)⟩
      valueOf).value := by
  have length := spells.digits.2
  simp only [List.length_append] at length
  rw [powerLimit] at exceeds
  refine Decimal.large_of_exponent pos ?_
  show (309 : Int) ≤ (valueOf power : Int) - fraction.length
  omega

/-- A power of ten below zero by more than the limit makes it small. -/
theorem Spells.small {negative : Bool} {whole fraction power : Text}
    (spells : Spells ⟨negative, whole, fraction, some (true, power)⟩ t)
    (few : t.length < 65000) {valueOf : Text → Nat}
    (exceeds : powerLimit < valueOf power) :
    2 * ((decimalOf ⟨negative, whole, fraction, some (true, power)⟩
      valueOf).value * unitsPerOne) < 1 := by
  obtain ⟨digits, length⟩ := spells.digits
  simp only [List.length_append] at length
  rw [powerLimit] at exceeds
  refine Decimal.small_of_exponent (digitsValue_lt digits) ?_
  rw [List.length_append]
  show -(valueOf power : Int) - fraction.length +
    (whole.length + fraction.length : Nat) ≤ -331
  omega

/-- **Long powers of ten.**  The number nearest to the decimal that a numeral
is read as is also nearest to the decimal that it denotes, unless the power
of ten has more digits than are read and there are enough digits in front of
it to make up for such a power. -/
theorem Spells.isNearest_decimal (spells : n.Spells t)
    (h : t.length < 65000 ∨ (powerOf digitsValue n.power).natAbs < 655360)
    {x : Binary64} {negative : Bool}
    (nearest : x.IsNearest negative n.decimalRead.value) :
    x.IsNearest negative n.decimal.value := by
  obtain ⟨sign, whole, fraction, - | ⟨minus, power⟩⟩ := n
  · exact nearest
  · by_cases read : digitsValue power / 10 ≤ powerLimit
    · -- the power is read to its end
      have same : decimalRead ⟨sign, whole, fraction, some (minus, power)⟩ =
          decimal ⟨sign, whole, fraction, some (minus, power)⟩ := by
        simp only [decimalRead, decimal, decimalOf, powerOf,
          powerValue_eq read]
      rwa [same] at nearest
    · have exceeds : powerLimit < digitsValue power := by omega
      have few : t.length < 65000 := by
        refine h.resolve_right fun small => read ?_
        have size : (powerOf digitsValue (some (minus, power))).natAbs =
            digitsValue power := by
          rw [powerOf]
          split <;> omega
        rw [size] at small
        rw [powerLimit]
        omega
      rcases Nat.eq_zero_or_pos (digitsValue (whole ++ fraction)) with
        zero | pos
      · rw [Decimal.value_eq_zero zero] at nearest ⊢
        exact nearest
      · cases minus with
        | false =>
          exact nearest.of_large (spells.large few pos (lt_powerValue exceeds))
            (spells.large few pos exceeds)
        | true =>
          exact nearest.of_small (Decimal.value_nonneg _)
            (spells.small few (lt_powerValue exceeds)) (Decimal.value_nonneg _)
            (spells.small few exceeds)

end Parts

end Numeral

end TreebankGrammar
