/-
TreebankGrammar/Proofs/DecimalPrecision.lean

How precise written numbers are.

A number is written as the decimal of seven digits nearest to it.  This is
off by at most half a unit of the last digit (`Decimal.near_ofUnits`).  The
text gives this decimal back, not another one (`parse?_scientific_eq`), and
what is read from it is the number nearest to the decimal
(`Decimal.rounds_rank`).

Design.  The grid on which a magnitude has its digits is a power of ten, and
the rounded coefficient is a multiple of it.  A coefficient with a digit too
many is one followed by zeros, so that writing it on the next grid changes
nothing.
-/
import Mathlib.Algebra.Order.Field.Power
import TreebankGrammar.Proofs.NearestNumber
import TreebankGrammar.Proofs.ProbabilityText

namespace TreebankGrammar

/-! ### Powers of ten -/

theorem tenTo_eq (n : Nat) : tenTo n = 10 ^ n := rfl

theorem tenTo_cast (n : Nat) : (tenTo n : ℚ) = 10 ^ n := by
  rw [tenTo_eq]
  push_cast
  rfl

theorem tenTo_pos (n : Nat) : 0 < tenTo n := Nat.pow_pos (by decide)

theorem tenTo_add (m n : Nat) : tenTo (m + n) = tenTo m * tenTo n :=
  Nat.pow_add 10 m n

theorem tenTo_mono {m n : Nat} (h : m ≤ n) : tenTo m ≤ tenTo n :=
  Nat.pow_le_pow_right (by decide) h

theorem tenTo_lt_tenTo_iff {m n : Nat} : tenTo m < tenTo n ↔ m < n :=
  Nat.pow_lt_pow_iff_right (by decide)

/-- The unit of a grid of decimals is positive. -/
theorem unitsPerOne_mul_tenTo_pos (n : Nat) : 0 < unitsPerOne * tenTo n :=
  Nat.mul_pos (one_shiftLeft_pos 1074) (tenTo_pos n)

theorem unitsPerOne_le_tenTo : unitsPerOne ≤ tenTo 330 := by decide +kernel

theorem two_pow_le_tenTo : 1 <<< 1024 ≤ tenTo 309 := by decide +kernel

-- from here on powers of ten are known by the lemmas above
attribute [local irreducible] tenTo

/-- Finite magnitudes are below two to the 1024. -/
theorem magnitude_lt {rank : Nat} (h : rank < infinityRank) :
    magnitude rank < unitsPerOne <<< 1024 := by
  rw [← magnitude_infinityRank]
  exact strictMono_magnitude h

namespace Decimal

/-- The exact value of a decimal. -/
def value (d : Decimal) : ℚ := d.coefficient * 10 ^ d.exponent

/-! ### From a magnitude to a decimal -/

/-- The place of a magnitude is that of its first digit. -/
theorem place_spec {units : Nat} (pos : 0 < units)
    (finite : units < unitsPerOne <<< 1024) :
    unitsPerOne * tenTo (place units) ≤ units * tenTo placeOrigin ∧
      units * tenTo placeOrigin < unitsPerOne * tenTo (place units + 1) ∧
      place units < 309 + placeOrigin := by
  have one_pos : 0 < unitsPerOne := one_shiftLeft_pos 1074
  have first : 0 < units * tenTo placeOrigin / unitsPerOne :=
    Nat.div_pos (unitsPerOne_le_tenTo.trans (Nat.le_mul_of_pos_left _ pos))
      one_pos
  have below : units * tenTo placeOrigin / unitsPerOne <
      tenTo (309 + placeOrigin) := by
    rw [Nat.div_lt_iff_lt_mul one_pos]
    calc units * tenTo placeOrigin
        < unitsPerOne <<< 1024 * tenTo placeOrigin :=
          Nat.mul_lt_mul_of_pos_right finite (tenTo_pos _)
      _ = 1 <<< 1024 * tenTo placeOrigin * unitsPerOne := by
          rw [shiftLeft_eq_mul]
          ring
      _ ≤ tenTo 309 * tenTo placeOrigin * unitsPerOne :=
          Nat.mul_le_mul_right _ (Nat.mul_le_mul_right _ two_pow_le_tenTo)
      _ = tenTo (309 + placeOrigin) * unitsPerOne := by rw [tenTo_add]
  have wide : tenTo (309 + placeOrigin) ≤ tenTo (1 <<< 10) :=
    tenTo_mono (by decide)
  obtain ⟨low, high⟩ := floorLog_spec first (Nat.lt_of_lt_of_le below wide)
  refine ⟨?_, ?_, ?_⟩
  · rw [Nat.mul_comm]
    exact (Nat.le_div_iff_mul_le one_pos).1 low
  · rw [Nat.mul_comm unitsPerOne]
    exact (Nat.div_lt_iff_lt_mul one_pos).1 high
  · exact tenTo_lt_tenTo_iff.1 (Nat.lt_of_le_of_lt low below)

/-- The grid of a place as a quotient of powers of ten. -/
theorem zpow_gridExponent (digits place : Nat) :
    (10 : ℚ) ^ gridExponent (digits + 1) place =
      tenTo place / tenTo (placeOrigin + digits) := by
  have exponent : gridExponent (digits + 1) place =
      (place : Int) - ((placeOrigin + digits : Nat) : Int) := by
    rw [gridExponent]
    push_cast
    ring
  rw [exponent, zpow_sub₀ (by norm_num), zpow_natCast, zpow_natCast,
    tenTo_cast, tenTo_cast]

/-- On the grid of a place a magnitude has one more digit than the spare
ones. -/
theorem grid_bounds {units : Nat} (digits : Nat) (pos : 0 < units)
    (finite : units < unitsPerOne <<< 1024) :
    tenTo digits * (unitsPerOne * tenTo (place units)) ≤
        units * tenTo (placeOrigin + digits) ∧
      units * tenTo (placeOrigin + digits) <
        tenTo (digits + 1) * (unitsPerOne * tenTo (place units)) := by
  obtain ⟨above, below, -⟩ := place_spec pos finite
  constructor
  · rw [tenTo_add, Nat.mul_comm, ← Nat.mul_assoc]
    exact Nat.mul_le_mul_right _ above
  · calc units * tenTo (placeOrigin + digits)
        = units * tenTo placeOrigin * tenTo digits := by
          rw [tenTo_add, Nat.mul_assoc]
      _ < unitsPerOne * tenTo (place units + 1) * tenTo digits :=
          Nat.mul_lt_mul_of_pos_right below (tenTo_pos _)
      _ = tenTo (digits + 1) * (unitsPerOne * tenTo (place units)) := by
          rw [tenTo_add, tenTo_add]
          ring

/-- The coefficient of a magnitude on the grid of its place, with one more
digit than the spare ones. -/
def gridCoefficient (digits units : Nat) : Nat :=
  divHalfEven (units * tenTo (placeOrigin + digits))
    (unitsPerOne * tenTo (place units))

theorem ofUnits_eq (digits units : Nat) :
    ofUnits (digits + 1) units =
      if gridCoefficient digits units < tenTo (digits + 1) then
        ⟨gridCoefficient digits units,
          gridExponent (digits + 1) (place units)⟩
      else ⟨tenTo digits, gridExponent (digits + 1) (place units + 1)⟩ := rfl

theorem gridExponent_succ (digits place : Nat) :
    gridExponent digits (place + 1) = gridExponent digits place + 1 := by
  simp only [gridExponent]
  push_cast
  ring

/-- A magnitude is a fraction of naturals on the grid of its place. -/
theorem zpow_gridExponent_mul (digits units : Nat) :
    (10 : ℚ) ^ gridExponent (digits + 1) (place units) *
        ((units * tenTo (placeOrigin + digits) : Nat) /
          (unitsPerOne * tenTo (place units) : Nat)) =
      units / unitsPerOne := by
  have pos_place : (0 : ℚ) < tenTo (place units) := by
    exact_mod_cast tenTo_pos _
  have pos_grid : (0 : ℚ) < tenTo (placeOrigin + digits) := by
    exact_mod_cast tenTo_pos _
  rw [zpow_gridExponent]
  push_cast
  field_simp

section OfUnits

variable {units : Nat} (digits : Nat) (pos : 0 < units)
  (finite : units < unitsPerOne <<< 1024)

include pos finite

theorem gridCoefficient_bounds :
    tenTo digits ≤ gridCoefficient digits units ∧
      gridCoefficient digits units ≤ tenTo (digits + 1) := by
  obtain ⟨low, high⟩ := grid_bounds digits pos finite
  have den_pos := unitsPerOne_mul_tenTo_pos (place units)
  have rounded := divHalfEven_bounds (units * tenTo (placeOrigin + digits))
    (unitsPerOne * tenTo (place units))
  have first := (Nat.le_div_iff_mul_le den_pos).2 low
  have last := (Nat.div_lt_iff_lt_mul den_pos).2 high
  exact ⟨Nat.le_trans first rounded.1, Nat.le_trans rounded.2 last⟩

/-- The rounded coefficient is off by at most half a unit. -/
theorem near_gridCoefficient :
    Near (1 / (2 * tenTo digits))
      (gridCoefficient digits units *
        10 ^ gridExponent (digits + 1) (place units))
      (units / unitsPerOne) := by
  have den_pos := unitsPerOne_mul_tenTo_pos (place units)
  have near := near_divHalfEven den_pos (tenTo_pos digits)
    (grid_bounds digits pos finite).1
  have scaled := near.mul_left
    (zpow_nonneg (by norm_num) (gridExponent (digits + 1) (place units)) :
      (0 : ℚ) ≤ 10 ^ gridExponent (digits + 1) (place units))
  rwa [zpow_gridExponent_mul, mul_comm (_ ^ _)] at scaled

/-- Writing a coefficient with a digit too many on the next grid changes
nothing. -/
theorem value_ofUnits :
    (ofUnits (digits + 1) units).value =
      gridCoefficient digits units *
        10 ^ gridExponent (digits + 1) (place units) := by
  have most := (gridCoefficient_bounds digits pos finite).2
  rw [ofUnits_eq]
  split
  · rw [value]
  · have carried : gridCoefficient digits units = tenTo (digits + 1) := by
      omega
    rw [carried, gridExponent_succ, value, zpow_add_one₀ (by norm_num),
      tenTo_cast, tenTo_cast, pow_succ]
    ring

/-- **Seven digits.**  The decimal of so many digits nearest to a magnitude
is off by at most half a unit of the last digit. -/
theorem near_ofUnits :
    Near (1 / (2 * tenTo digits)) (ofUnits (digits + 1) units).value
      (units / unitsPerOne) := by
  rw [value_ofUnits digits pos finite]
  exact near_gridCoefficient digits pos finite

/-- The coefficient has all the digits, and no more. -/
theorem coefficient_ofUnits :
    tenTo digits ≤ (ofUnits (digits + 1) units).coefficient ∧
      (ofUnits (digits + 1) units).coefficient < tenTo (digits + 1) := by
  rw [ofUnits_eq]
  split
  · rename_i fits
    exact ⟨(gridCoefficient_bounds digits pos finite).1, fits⟩
  · exact ⟨Nat.le_refl _, tenTo_lt_tenTo_iff.2 (Nat.lt_succ_self _)⟩

/-- The exponent of a decimal of a magnitude is not large. -/
theorem exponent_ofUnits :
    -(330 + digits : Int) ≤ (ofUnits (digits + 1) units).exponent ∧
      (ofUnits (digits + 1) units).exponent ≤ 309 - digits := by
  have small := (place_spec pos finite).2.2
  have grid : gridExponent (digits + 1) (place units) ≤
        (ofUnits (digits + 1) units).exponent ∧
      (ofUnits (digits + 1) units).exponent ≤
        gridExponent (digits + 1) (place units) + 1 := by
    rw [ofUnits_eq]
    split
    · exact ⟨Int.le_refl _, Int.le_add_of_nonneg_right (by decide)⟩
    · rw [gridExponent_succ]
      exact ⟨Int.le_add_of_nonneg_right (by decide), Int.le_refl _⟩
  rw [gridExponent] at grid
  rw [placeOrigin] at grid small
  push_cast at grid
  constructor <;> omega

end OfUnits

/-! ### From a decimal to a number -/

/-- The rank of a decimal is that of its value, as a quotient of naturals in
units. -/
theorem exists_quotient (d : Decimal) :
    ∃ num den : Nat, 0 < den ∧ d.rank = nearestRank num den ∧
      (num : ℚ) / den = d.value * unitsPerOne := by
  rw [rank]
  split
  · rename_i nonneg
    refine ⟨_, 1, Nat.one_pos, rfl, ?_⟩
    obtain ⟨n, eq⟩ := Int.eq_ofNat_of_zero_le nonneg
    rw [value, eq, Int.toNat_natCast, zpow_natCast]
    push_cast
    rw [tenTo_cast, div_one]
  · rename_i neg
    refine ⟨_, _, tenTo_pos _, rfl, ?_⟩
    obtain ⟨n, eq⟩ := Int.exists_eq_neg_ofNat (by omega : d.exponent ≤ 0)
    rw [value, eq, neg_neg, Int.toNat_natCast, zpow_neg, zpow_natCast,
      tenTo_cast]
    push_cast
    field_simp

/-- **Reading a decimal** rounds it once. -/
theorem rounds_rank {d : Decimal} (normal : IsNormal d.value) :
    (Binary64.ofRank false d.rank).Rounds d.value := by
  obtain ⟨num, den, pos, rank, exact⟩ := d.exists_quotient
  rw [rank]
  exact Binary64.rounds_nearest pos exact normal

/-- A decimal that is neither very large nor very small is read as it
is. -/
theorem clamp_eq {d : Decimal}
    (low : -(400 + d.coefficient.log2 : Nat) ≤ d.exponent)
    (high : d.exponent ≤ 400) : d.clamp = d := by
  have same : max (-(400 + d.coefficient.log2 : Nat) : Int)
      (min 400 d.exponent) = d.exponent := by omega
  rw [clamp, same]

end Decimal

/-! ### Reading digits -/

theorem digitsValue_ofNatPadded (width n : Nat) :
    Numeral.digitsValue (Text.ofNatPadded width n) = n := by
  rw [Numeral.digitsValue, Text.ofNatPadded, List.leftpad,
    Nat.ofDigitChars_append, Nat.ofDigitChars_replicate_zero, Nat.mul_zero,
    Text.ofNat, Nat.ofDigitChars_ten_toDigits]

theorem length_ofNatPadded {width n : Nat} (pos : 0 < width)
    (h : n < 10 ^ width) : (Text.ofNatPadded width n).length = width := by
  have short : (Text.ofNat n).length ≤ width :=
    (Nat.length_toDigits_le_iff (by decide) pos).2 h
  rw [Text.ofNatPadded, List.length_leftpad, Nat.max_eq_left short]

/-- The value of digits grows with each of them. -/
theorem le_ofDigitChars (t : Text) (n : Nat) :
    n ≤ Nat.ofDigitChars 10 t n := by
  induction t generalizing n with
  | nil => exact Nat.le_refl n
  | cons c t ih =>
    rw [Nat.ofDigitChars_cons]
    exact Nat.le_trans (by omega) (ih _)

/-- The digits of a power of ten are all read, if the last one is. -/
theorem powerValue_eq {t : Text}
    (h : Numeral.digitsValue t / 10 ≤ Numeral.powerLimit) :
    Numeral.powerValue t = Numeral.digitsValue t := by
  have fold : ∀ (t : Text) n,
      Nat.ofDigitChars 10 t n / 10 ≤ Numeral.powerLimit →
      t.foldl (fun n c => if n ≤ Numeral.powerLimit then
        10 * n + (c.toNat - '0'.toNat) else n) n =
          Nat.ofDigitChars 10 t n := by
    intro t
    induction t with
    | nil => exact fun n _ => rfl
    | cons c t ih =>
      intro n le
      have here : n ≤ Numeral.powerLimit := by
        have grown := le_ofDigitChars t (10 * n + (c.toNat - '0'.toNat))
        rw [Nat.ofDigitChars_cons] at le
        omega
      rw [List.foldl_cons, if_pos here, Nat.ofDigitChars_cons]
      exact ih _ le
  exact fold t 0 h

/-- The text of a decimal of seven digits, with a sign before it, is a numeral
with this sign and this decimal, whichever way the power of ten is read. -/
theorem spells_scientific_decimalOf (negative : Bool) {d : Decimal}
    (digits : d.coefficient < tenTo 7) :
    ∃ n : Numeral.Parts, n.negative = negative ∧
      n.Spells (Binary64.signText negative ++ d.scientific) ∧
      ∀ valueOf, valueOf (Text.ofNatPadded 2 (d.exponent + 6).natAbs) =
        (d.exponent + 6).natAbs → n.decimalOf valueOf = d := by
  obtain ⟨whole, fraction, power, sign, shape, whole_ne, power_ne, hs, hw, hf,
    hp, all, one, minus, rfl⟩ := scientific_shape d
  rw [shape]
  refine ⟨_, rfl, spells_shape negative whole_ne power_ne hs hw hf hp,
    fun valueOf value => ?_⟩
  have length : fraction.length = 6 := by
    have total := congrArg List.length all
    rw [List.length_append, one,
      length_ofNatPadded (by decide) (tenTo_eq 7 ▸ digits)] at total
    omega
  simp only [Numeral.Parts.decimalOf, Numeral.Parts.powerOf, value, length,
    all, digitsValue_ofNatPadded, decide_eq_true_eq, minus]
  obtain ⟨coefficient, exponent⟩ := d
  rw [Decimal.mk.injEq]
  refine ⟨rfl, ?_⟩
  simp only
  split <;> omega

/-- **The text of a decimal** of seven digits, with a sign before it, gives the
sign and the decimal back. -/
theorem parse?_scientific_eq (negative : Bool) {d : Decimal}
    (digits : d.coefficient < tenTo 7) (low : -400 ≤ d.exponent)
    (high : d.exponent ≤ 400) :
    Numeral.parse? (Binary64.signText negative ++ d.scientific) =
      some ⟨negative, d⟩ := by
  obtain ⟨n, sign, spells, decimal⟩ :=
    spells_scientific_decimalOf negative digits
  rw [Numeral.parse?_eq_some_iff]
  refine ⟨n, spells, ?_⟩
  rw [sign, Numeral.Parts.decimalRead, decimal]
  rw [powerValue_eq, digitsValue_ofNatPadded]
  rw [digitsValue_ofNatPadded, Numeral.powerLimit]
  omega

/-! ### Reading a number back -/

namespace Binary64

/-- The decimal that is written for the magnitude of a rank. -/
def writtenDecimal (rank : Nat) : Decimal :=
  if rank = 0 then ⟨0, -6⟩ else Decimal.ofUnits 7 (magnitude rank)

/-- The number that is read from the text of a number. -/
def reread : Binary64 → Binary64
  | finite negative rank => ofRank negative (writtenDecimal rank).rank
  | x => x

theorem magnitude_pos {rank : Nat} (h : rank ≠ 0) : 0 < magnitude rank := by
  rw [magnitude]
  split
  · exact Nat.pos_of_ne_zero h
  · exact shiftLeft_pos (Nat.add_pos_left blockSize_pos _) _

theorem writtenDecimal_bounds {rank : Nat} (h : rank < infinityRank) :
    (writtenDecimal rank).coefficient < tenTo 7 ∧
      -400 ≤ (writtenDecimal rank).exponent ∧
      (writtenDecimal rank).exponent ≤ 400 := by
  rw [writtenDecimal]
  split
  · exact ⟨tenTo_pos 7, by decide, by decide⟩
  · rename_i ne
    have pos := magnitude_pos ne
    have finite := magnitude_lt h
    obtain ⟨low, high⟩ := Decimal.exponent_ofUnits 6 pos finite
    exact ⟨(Decimal.coefficient_ofUnits 6 pos finite).2,
      Int.le_trans (by decide) low, Int.le_trans high (by decide)⟩

theorem parse?_scientific_finite (negative : Bool) (rank : Fin infinityRank) :
    Numeral.parse? (finite negative rank).scientific =
      some ⟨negative, writtenDecimal rank⟩ := by
  obtain ⟨digits, low, high⟩ := writtenDecimal_bounds rank.isLt
  exact parse?_scientific_eq negative digits low high

theorem value_writtenDecimal (negative : Bool) (rank : Fin infinityRank) :
    (⟨negative, writtenDecimal rank⟩ : Numeral).value =
      (finite negative rank).reread := by
  obtain ⟨-, low, high⟩ := writtenDecimal_bounds rank.isLt
  rw [Numeral.value, Decimal.clamp_eq (by omega) high]
  rfl

/-- A finite number without a minus sign is read back from its text as the
number nearest to the written decimal. -/
theorem probability?_scientific_finite (rank : Fin infinityRank) :
    WeightedRule.probability? (finite false rank).scientific =
      .ok (finite false rank).reread := by
  have numeric : looksNumeric (finite false rank).scientific = true :=
    looksNumeric_scientific (writtenDecimal rank)
  rw [WeightedRule.probability?, if_pos numeric, parse?_scientific_finite]
  simp only [value_writtenDecimal, reread, not_lt_zero, Bool.false_eq_true,
    if_false]

/-- The decimal that is written is off by at most half a unit of the seventh
digit. -/
theorem near_writtenDecimal {rank : Fin infinityRank} (h : rank.val ≠ 0) :
    Near (1 / (2 * 10 ^ 6)) (writtenDecimal rank).value
      (magnitude rank / unitsPerOne) := by
  have near := Decimal.near_ofUnits 6 (magnitude_pos h) (magnitude_lt rank.isLt)
  rw [writtenDecimal, if_neg h]
  rwa [tenTo_cast] at near

/-- A number with a positive value has another rank than zero. -/
theorem rank_ne_zero {rank : Fin infinityRank} {v : ℚ}
    (h : (finite false rank).value? = some v) (pos : 0 < v) :
    rank.val ≠ 0 := by
  intro zero
  rw [← Option.some.inj h, units, zero, magnitude_zero] at pos
  exact absurd pos (by simp)

/-- **Reading a number back** gives a number that is off by little more than
half a unit of the seventh digit. -/
theorem near_reread {rank : Fin infinityRank} {v : ℚ}
    (h : (finite false rank).value? = some v) (low : 1 ≤ v * 2 ^ 99)
    (high : v ≤ 2 ^ 99) :
    ∃ w, (finite false rank).reread.value? = some w ∧
      Near (500001 / 10 ^ 12) w v := by
  have exact : (magnitude rank : ℚ) / unitsPerOne = v := Option.some.inj h
  have near := near_writtenDecimal (rank_ne_zero h (by linarith))
  rw [exact] at near
  obtain ⟨above, below⟩ := near.bounds
  norm_num at above below low high
  have normal : IsNormal (writtenDecimal rank).value := by
    apply isNormal_of_bounds
    · linarith
    · linarith
  obtain ⟨w, value, rounded⟩ := Decimal.rounds_rank normal
  refine ⟨w, value, ?_⟩
  refine (rounded.trans near (by positivity)).mono ?_ ?_
  · norm_num
  · linarith

end Binary64

/-! ### Probabilities -/

/-- The probability of each of some expansions is near to the exact one. -/
theorem near_uniformProbability {count : Nat} (pos : 0 < count)
    (few : count < 2 ^ 64) :
    ∃ v, (uniformProbability count).value? = some v ∧
      Near (1 / 2 ^ 51) v (1 / count) := by
  have pos' : (1 : ℚ) ≤ count := by exact_mod_cast pos
  have few' : (count : ℚ) < 18446744073709551616 := by exact_mod_cast few
  have normal : IsNormal (count : ℚ) := by
    apply isNormal_of_bounds
    · linarith
    · linarith
  obtain ⟨a, value, near⟩ := Binary64.rounds_ofNat normal
  obtain ⟨above, below⟩ := near.bounds
  norm_num at above below
  have a_pos : 0 < a := by linarith
  have normal' : IsNormal (1 / a) := by
    apply isNormal_of_bounds
    · rw [one_div_mul_eq_div, le_div_iff₀ a_pos]
      norm_num
      linarith
    · rw [div_le_iff₀ a_pos]
      norm_num
      linarith
  obtain ⟨v, value', near'⟩ := Binary64.rounds_reciprocal value a_pos normal'
  refine ⟨v, value', ?_⟩
  have inverse := near.one_div (by linarith) (by norm_num)
  refine (near'.trans inverse (by positivity)).mono ?_ (by positivity)
  norm_num

end TreebankGrammar
