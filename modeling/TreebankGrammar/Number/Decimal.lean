/-
TreebankGrammar/Number/Decimal.lean

Decimal numbers between text and floating point.

A decimal is a coefficient times a power of ten.  Reading a number goes from
a decimal to the nearest rank; writing one goes from a magnitude to a decimal
with a chosen count of digits.  Writing needs the *place* of a magnitude, the
power of ten of its first digit.

Design.  The smallest positive magnitude is above 10^-324, so places are
counted from `placeOrigin` below zero and every scale factor is a natural.
On a grid of `digits` digits a magnitude is a fraction of naturals
(`onGrid`); its integer part and the next integer are its two neighbours
there.  Exponents that a text gives may be of any size; `clamp` brings them
into a range in which the powers stay small, far enough out that the nearest
rank is the same.

Main result: `floorLog` is the exponent of the greatest power of ten that is
not above a number (`floorLog_spec`).
-/
import TreebankGrammar.Number.Binary64

namespace TreebankGrammar

/-! ### Powers of ten -/

/-- Ten to the `n`. -/
def tenTo (n : Nat) : Nat := Nat.pow 10 n

/-- Adds to `low` the largest number of so many bits for which ten to the sum
is not above `n`, one bit after the other. -/
def climb (n : Nat) : Nat → Nat → Nat
  | 0, low => low
  | bits + 1, low =>
    if tenTo (low + 1 <<< bits) ≤ n then climb n bits (low + 1 <<< bits)
    else climb n bits low

/-- The exponent of the greatest power of ten that is not above a positive
number below ten to the 1024. -/
def floorLog (n : Nat) : Nat := climb n 10 0

theorem climb_spec {n : Nat} (bits low : Nat) (above : tenTo low ≤ n)
    (below : n < tenTo (low + 1 <<< bits)) :
    tenTo (climb n bits low) ≤ n ∧ n < tenTo (climb n bits low + 1) := by
  induction bits generalizing low with
  | zero => exact ⟨above, below⟩
  | succ bits ih =>
    simp only [climb]
    split
    · rename_i h
      refine ih _ h ?_
      rwa [Nat.add_assoc, ← Nat.two_mul, ← Nat.shiftLeft_succ]
    · rename_i h
      exact ih _ above (Nat.lt_of_not_le h)

theorem floorLog_spec {n : Nat} (pos : 0 < n)
    (below : n < tenTo (1 <<< 10)) :
    tenTo (floorLog n) ≤ n ∧ n < tenTo (floorLog n + 1) :=
  climb_spec 10 0 pos (by rwa [Nat.zero_add])

/-! ### From a decimal to a rank -/

/-- A decimal number: `coefficient` times ten to the `exponent`. -/
structure Decimal where
  coefficient : Nat
  exponent : Int
  deriving DecidableEq

namespace Decimal

/-- The rank of the magnitude nearest to the decimal. -/
def rank (d : Decimal) : Nat :=
  if 0 ≤ d.exponent then
    nearestRank (d.coefficient * tenTo d.exponent.toNat * unitsPerOne) 1
  else
    nearestRank (d.coefficient * unitsPerOne) (tenTo (-d.exponent).toNat)

/-- The decimal with its exponent brought into range.  Above ten to the 400
everything but zero is infinite, and below ten to the -399 everything is
nearest to zero. -/
def clamp (d : Decimal) : Decimal :=
  let low : Int := -(400 + d.coefficient.log2 : Nat)
  { d with exponent := max low (min 400 d.exponent) }

/-! ### From a magnitude to a decimal -/

/-- How far below zero the count of places starts. -/
def placeOrigin : Nat := 330

/-- The place of the first digit of a positive magnitude. -/
def place (units : Nat) : Nat :=
  floorLog (units * tenTo placeOrigin / unitsPerOne)

/-- A magnitude with its first digit at a place, as a multiple, not a whole
one in general, of the grid on which it has `digits` digits: numerator and
denominator. -/
def onGrid (digits place units : Nat) : Nat × Nat :=
  (units * tenTo (placeOrigin + digits - 1), unitsPerOne * tenTo place)

/-- The exponent of the grid on which a magnitude with its first digit at a
place has `digits` digits. -/
def gridExponent (digits place : Nat) : Int :=
  (place : Int) - placeOrigin - digits + 1

/-- The decimal of `digits` digits nearest to a magnitude, ties going to the
even last digit.  A coefficient that rounds up to one digit more is written
with its first digit at the next place. -/
def ofUnits (digits units : Nat) : Decimal :=
  let place := place units
  let (num, den) := onGrid digits place units
  let coefficient := divHalfEven num den
  if coefficient < tenTo digits then ⟨coefficient, gridExponent digits place⟩
  else ⟨tenTo (digits - 1), gridExponent digits (place + 1)⟩

end Decimal

end TreebankGrammar
