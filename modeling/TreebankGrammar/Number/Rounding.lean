/-
TreebankGrammar/Number/Rounding.lean

Rounding a quotient of naturals to the nearest natural, a half going to the
even neighbour.

Both directions of the number formats use this one function: a decimal is
rounded to the grid of doubles with it, and a double to the grid of seven
digit decimals.

Main results: a multiple of the divisor is hit exactly
(`divHalfEven_mul_right`), and the result is never further than half a unit
from the quotient (`two_mul_dist_divHalfEven_le`).
-/

namespace TreebankGrammar

/-- The natural nearest to `num / den`; of two equally near ones the even
one. -/
def divHalfEven (num den : Nat) : Nat :=
  let below := num / den
  let twice := 2 * (num % den)
  if twice < den then below
  else if den < twice then below + 1
  else below + below % 2

/-- A multiple of the divisor is divided exactly. -/
theorem divHalfEven_mul_right (q : Nat) {den : Nat} (h : 0 < den) :
    divHalfEven (q * den) den = q := by
  simp [divHalfEven, h]

/-- Half a unit at most: the rounded quotient times the divisor is at most
half a divisor away from the dividend, on either side. -/
theorem two_mul_dist_divHalfEven_le (num : Nat) {den : Nat} (h : 0 < den) :
    2 * num ≤ 2 * (divHalfEven num den * den) + den ∧
      2 * (divHalfEven num den * den) ≤ 2 * num + den := by
  have e := Nat.div_add_mod num den
  have lt := Nat.mod_lt num h
  have odd : num / den % 2 = 0 ∨ num / den % 2 = 1 := by omega
  rw [Nat.mul_comm] at e
  simp only [divHalfEven]
  split
  · omega
  · split
    · rw [Nat.add_mul]
      omega
    · rcases odd with even | odd
      · rw [even, Nat.add_zero]
        omega
      · rw [odd, Nat.add_mul]
        omega

end TreebankGrammar
