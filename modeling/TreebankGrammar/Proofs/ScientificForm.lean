/-
TreebankGrammar/Proofs/ScientificForm.lean

The text of a number.

A number other than zero is written as the decimal of seven digits nearest to
its exact value, a half going to the even last digit, in scientific form
(`scientific_of_value?`).

Design.  What is written is described twice, and neither description uses the
writer.  `IsScientific` says which characters stand where, and which sign,
coefficient and exponent they spell.  `IsNearestSeven` compares the decimal
with all others of seven digits, of both signs.
-/
import TreebankGrammar.Proofs.NearestDecimal
import TreebankGrammar.Proofs.NumeralValue

namespace TreebankGrammar

open Numeral (digitsValue)

/-! ### Digits -/

/-- Whether a text is made of the digits of a number, with zeros before them
only to fill a width. -/
structure Text.IsPadded (width n : Nat) (t : Text) : Prop where
  digits : ∀ c ∈ t, c.isDigit = true
  value : digitsValue t = n
  width_le : width ≤ t.length
  head_ne_zero : width < t.length → t.head? ≠ some '0'

/-- The digits of a number other than zero do not begin with a zero. -/
theorem head?_ofNat_ne_zero {n : Nat} (h : n ≠ 0) :
    (Text.ofNat n).head? ≠ some '0' := by
  intro zero
  rcases e : Text.ofNat n with - | ⟨c, t⟩
  · exact absurd e Nat.toDigits_ne_nil
  · obtain rfl : c = '0' := by simpa [e] using zero
    have digits : ∀ c ∈ t, c.isDigit = true := by
      intro c m
      have mem : c ∈ Text.ofNat n := e ▸ List.mem_cons_of_mem _ m
      exact Nat.isDigit_of_mem_toDigits (by decide) (by decide) mem
    have value : digitsValue t = n := by
      have whole := Nat.ofDigitChars_ten_toDigits (n := n)
      rw [← Text.ofNat, e, Nat.ofDigitChars_cons] at whole
      exact whole
    -- without the zero the digits would be too few
    have few : n < 10 ^ t.length := value ▸ Numeral.digitsValue_lt digits
    have some : 0 < t.length := by
      rcases t with - | ⟨c, t⟩
      · exact absurd (Nat.lt_one_iff.1 few) h
      · exact Nat.succ_pos _
    have short := (Nat.length_toDigits_le_iff (by decide) some).2 few
    rw [← Text.ofNat, e, List.length_cons] at short
    omega

theorem isPadded_ofNatPadded {width : Nat} (pos : 0 < width) (n : Nat) :
    Text.IsPadded width n (Text.ofNatPadded width n) where
  digits _ m := isDigit_of_mem_ofNatPadded m
  value := digitsValue_ofNatPadded width n
  width_le := by
    rw [Text.ofNatPadded, List.length_leftpad]
    exact Nat.le_max_left _ _
  head_ne_zero long := by
    rcases Nat.lt_or_ge n (10 ^ width) with few | many
    · exact absurd (length_ofNatPadded pos few) long.ne'
    · rw [Text.ofNatPadded, List.length_leftpad] at long
      have none : width - (Text.ofNat n).length = 0 := by omega
      rw [Text.ofNatPadded, List.leftpad, none]
      exact head?_ofNat_ne_zero
        (Nat.ne_of_gt ((Nat.pow_pos (by decide)).trans_le many))

/-! ### Scientific form -/

/-- Whether a text is a number in scientific form: a minus sign just if it is
negative; the seven digits of its coefficient with a point after the first,
which is not zero unless all are; and the exponent of the first digit, with
its sign and at least two digits. -/
def IsScientific (t : Text) (negative : Bool) (coefficient : Nat)
    (exponent : Int) : Prop :=
  ∃ first fraction power,
    t = (if negative then ['-'] else []) ++ first :: '.' ::
        (fraction ++ 'e' :: (if exponent < 0 then '-' else '+') :: power) ∧
      fraction.length = 6 ∧ Text.IsPadded 7 coefficient (first :: fraction) ∧
      (coefficient ≠ 0 → first ≠ '0') ∧
      Text.IsPadded 2 exponent.natAbs power

/-- Whether a decimal, a whole number times a power of ten, is the nearest to
a value of all those with seven digits: every other one is further away, or
just as far if the last digit is even.  The exponent is that of the first
digit. -/
structure IsNearestSeven (m e : Int) (v : ℚ) : Prop where
  low : 10 ^ 6 ≤ |m|
  high : |m| < 10 ^ 7
  nearer : ∀ m' e' : Int, 10 ^ 6 ≤ |m'| → |m'| < 10 ^ 7 →
    (m', e') ≠ (m, e) →
      |m * 10 ^ (e - 6) - v| < |m' * 10 ^ (e' - 6) - v| ∨
        |m * 10 ^ (e - 6) - v| = |m' * 10 ^ (e' - 6) - v| ∧ Even m

namespace Decimal

variable {d : Decimal} {v : ℚ}

/-- The text of a decimal of seven digits with a sign before it. -/
theorem HasDigits.isScientific (h : HasDigits 7 d) (negative : Bool) :
    IsScientific (Binary64.signText negative ++ d.scientific) negative
      d.coefficient (d.exponent + 6) := by
  obtain ⟨whole, fraction, power, sign, shape, -, -, signs, -, -, -, all, one,
    minus, powerText⟩ := scientific_shape d
  obtain ⟨first, rfl⟩ := List.length_eq_one_iff.1 one
  have length : (first :: fraction).length = 7 := by
    rw [← length_ofNatPadded (by decide : 0 < 7) h.high, ← all]
    rfl
  have padded : Text.IsPadded 7 d.coefficient (first :: fraction) := by
    have digits := isPadded_ofNatPadded (by decide : 0 < 7) d.coefficient
    rwa [← all] at digits
  refine ⟨first, fraction, power, ?_, Nat.succ.inj length, padded, ?_, ?_⟩
  · have which : sign = if d.exponent + 6 < 0 then '-' else '+' := by
      split
      · rename_i neg
        exact minus.2 neg
      · rename_i nonneg
        exact signs.resolve_left (mt minus.1 nonneg)
    rw [shape, which]
    rfl
  · -- with a zero first the other six digits make less than a million
    rintro - rfl
    have low := h.low
    have few := Numeral.digitsValue_lt
      fun c m => padded.digits c (List.mem_cons_of_mem _ m)
    have value : digitsValue fraction = d.coefficient := by
      rw [← padded.value, digitsValue, digitsValue, Nat.ofDigitChars_cons]
      rfl
    rw [value, Nat.succ.inj length] at few
    exact absurd low (Nat.not_le.2 few)
  · rw [powerText]
    exact isPadded_ofNatPadded (by decide) _

/-- The nearest decimal to a positive value, with a sign before it, is nearest
to the value with this sign among all decimals with signs. -/
theorem IsNearest.isNearestSeven {a : ℚ} (h : IsNearest 7 d a) {sign : Int}
    (unit : |sign| = 1) (signed : v = sign * a) :
    IsNearestSeven (sign * d.coefficient) (d.exponent + 6) v := by
  have unit' : |(sign : ℚ)| = 1 := by exact_mod_cast unit
  have absolute : |v| = a := by
    rw [signed, abs_mul, unit', one_mul, abs_of_pos h.pos]
  have size : |sign * (d.coefficient : Int)| = d.coefficient := by
    rw [abs_mul, unit, one_mul, Nat.abs_cast]
  have low := h.hasDigits.low
  have high := h.hasDigits.high
  -- the distance of two numbers with the same sign is that of their sizes
  have here : |((sign * d.coefficient : Int) : ℚ) * 10 ^ (d.exponent + 6 - 6) -
      v| = |d.value - a| := by
    have split : ((sign * d.coefficient : Int) : ℚ) *
        10 ^ (d.exponent + 6 - 6) - v = sign * (d.value - a) := by
      rw [add_sub_cancel_right, mul_sub, ← signed, value]
      push_cast
      ring
    rw [split, abs_mul, unit', one_mul]
  refine ⟨by rw [size]; exact_mod_cast low, by rw [size]; exact_mod_cast high,
    fun m' e' low' high' ne => ?_⟩
  rw [here]
  -- any other number is at least as far from the value as its size is
  have other : (⟨m'.natAbs, e' - 6⟩ : Decimal).value =
      |(m' : ℚ) * 10 ^ (e' - 6)| := by
    rw [value, Nat.cast_natAbs, Int.cast_abs, abs_mul,
      abs_of_pos (zpow_pos (by norm_num : (0 : ℚ) < 10) _)]
  have hasDigits : HasDigits 7 ⟨m'.natAbs, e' - 6⟩ := by
    constructor <;> zify
    · exact low'
    · exact high'
  have further := abs_abs_sub_abs_le_abs_sub ((m' : ℚ) * 10 ^ (e' - 6)) v
  rw [← other, absolute] at further
  by_cases same : (⟨m'.natAbs, e' - 6⟩ : Decimal) = d
  · -- it can only be the number with the other sign
    left
    have exponent : e' - 6 = d.exponent := congrArg Decimal.exponent same
    have coefficient : |m'| = |sign * (d.coefficient : Int)| := by
      rw [size, ← Int.natCast_natAbs]
      exact congrArg (fun e => (e.coefficient : Int)) same
    have opposite : m' = -(sign * d.coefficient) := by
      refine (abs_eq_abs.1 coefficient).resolve_left fun eq => ne ?_
      rw [eq, ← exponent, sub_add_cancel]
    have sum : (m' : ℚ) * 10 ^ (e' - 6) - v =
        -(sign * (d.value + a)) := by
      rw [opposite, exponent, mul_add, ← signed, value]
      push_cast
      ring
    have d_pos := h.hasDigits.value_pos
    have a_pos := h.pos
    rw [sum, abs_neg, abs_mul, unit', one_mul, abs_of_pos (add_pos d_pos a_pos),
      abs_lt]
    constructor <;> linarith
  · rcases h.nearer _ hasDigits same with lt | ⟨eq, even⟩
    · exact .inl (lt.trans_le further)
    · rcases lt_or_eq_of_le further with lt | eq'
      · exact .inl (eq ▸ lt)
      · refine .inr ⟨eq.trans eq', ?_⟩
        exact (Int.even_coe_nat _).2 (Nat.even_iff.2 even) |>.mul_left _

end Decimal

namespace Binary64

/-! ### The sign bit -/

/-- The sign of a finite number is the highest bit of its pattern. -/
theorem testBit_toBits (negative : Bool) (rank : Fin infinityRank) :
    (finite negative rank).toBits.testBit 63 = negative := by
  have small : rank.val < 2 ^ 63 := rank.isLt.trans (by decide)
  rw [toBits, signBit]
  cases negative with
  | false =>
    rw [if_neg Bool.false_ne_true, Nat.zero_add]
    exact Nat.testBit_lt_two_pow small
  | true =>
    rw [if_pos rfl, Nat.one_shiftLeft, Nat.testBit_two_pow_add_eq,
      Nat.testBit_lt_two_pow small]
    rfl

/-! ### Numbers -/

/-- The sign of a number as a factor. -/
def signFactor (negative : Bool) : Int := if negative then -1 else 1

theorem abs_signFactor (negative : Bool) : |signFactor negative| = 1 := by
  cases negative <;> rfl

/-- The exact value of a finite number by its sign and its magnitude. -/
theorem value?_finite (negative : Bool) (rank : Fin infinityRank) :
    (finite negative rank).value? =
      some (signFactor negative * (magnitude rank / unitsPerOne : ℚ)) := by
  rw [value?, units, signFactor]
  cases negative with
  | false => simp
  | true => simp [neg_div]

/-- The decimal that is written for a magnitude other than zero. -/
theorem writtenDecimal_of_ne_zero {rank : Nat} (h : rank ≠ 0) :
    writtenDecimal rank = Decimal.ofUnits 7 (magnitude rank) := if_neg h

/-- **The decimal that is written** is the nearest one of seven digits. -/
theorem isNearest_writtenDecimal {rank : Fin infinityRank}
    (h : rank.val ≠ 0) :
    Decimal.IsNearest 7 (writtenDecimal rank)
      (magnitude rank / unitsPerOne) := by
  rw [writtenDecimal_of_ne_zero h]
  exact Decimal.isNearest_ofUnits 6 (by decide) (magnitude_pos h)
    (magnitude_lt rank.isLt)

theorem scientific_finite (negative : Bool) (rank : Fin infinityRank) :
    (finite negative rank).scientific =
      signText negative ++ (writtenDecimal rank).scientific := rfl

/-- **The text of a number.**  Zero is written as zero with its sign.  Any
other finite number is written in scientific form, with the sign that its
highest bit shows, as the number with seven digits that is nearest to its
exact value, of two equally near ones the one with an even last digit. -/
theorem scientific_of_value? {x : Binary64} {v : ℚ} (h : x.value? = some v) :
    (v = 0 → x.scientific =
        signText (x.toBits.testBit 63) ++ "0.000000e+00".toList) ∧
      (v ≠ 0 → ∃ m e : Int,
        IsScientific x.scientific (x.toBits.testBit 63) m.natAbs e ∧
          (m < 0 ↔ x.toBits.testBit 63 = true) ∧ IsNearestSeven m e v) := by
  obtain ⟨negative, rank, rfl, -⟩ := value?_eq_some h
  rw [value?_finite, Option.some.injEq] at h
  rw [testBit_toBits, scientific_finite]
  by_cases zero : rank.val = 0
  · have none : v = 0 := by
      rw [← h, zero, magnitude_zero, Nat.cast_zero, zero_div, mul_zero]
    refine ⟨fun _ => ?_, fun ne => absurd none ne⟩
    rw [zero]
    rfl
  · have near := isNearest_writtenDecimal zero
    have v_eq := h.symm
    have some : v ≠ 0 := by
      rw [v_eq]
      refine mul_ne_zero (Int.cast_ne_zero.2 fun none => ?_) near.pos.ne'
      have unit := abs_signFactor negative
      rw [none, abs_zero] at unit
      exact absurd unit (by decide)
    refine ⟨fun none => absurd none some, fun _ => ?_⟩
    refine ⟨signFactor negative * (writtenDecimal rank).coefficient,
      (writtenDecimal rank).exponent + 6, ?_, ?_,
      near.isNearestSeven (abs_signFactor negative) v_eq⟩
    · have size : (signFactor negative *
          ((writtenDecimal rank).coefficient : Int)).natAbs =
            (writtenDecimal rank).coefficient := by
        cases negative <;> simp [signFactor]
      rw [size]
      exact near.hasDigits.isScientific negative
    · have positive : 0 < (writtenDecimal rank).coefficient :=
        lt_of_lt_of_le (by decide) near.hasDigits.low
      cases negative with
      | false => simp [signFactor]
      | true => simp [signFactor, positive]

/-- A tie that is carried through all seven digits: the number below
-9999999 by a half. -/
theorem scientific_of_value?_carry :
    (ofBits 0xC16312CFF0000000).value? = some (-19999999 / 2) ∧
      ∃ m e : Int,
        IsScientific "-1.000000e+07".toList true m.natAbs e ∧
          m < 0 ∧ IsNearestSeven m e (-19999999 / 2) := by
  have value : (ofBits 0xC16312CFF0000000).value? =
      some (-19999999 / 2) := by decide +kernel
  have text : (ofBits 0xC16312CFF0000000).scientific =
      "-1.000000e+07".toList := by decide +kernel
  have bit : (ofBits 0xC16312CFF0000000).toBits.testBit 63 = true := by
    decide +kernel
  obtain ⟨m, e, form, minus, nearest⟩ :=
    (scientific_of_value? value).2 (by norm_num)
  rw [text, bit] at form
  exact ⟨value, m, e, form, minus.2 bit, nearest⟩

end Binary64

end TreebankGrammar
