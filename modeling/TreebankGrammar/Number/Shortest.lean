/-
TreebankGrammar/Number/Shortest.lean

The form in which a total is reported: the fewest digits that read back as
the same number, written out in full without an exponent.

Design.  The search goes through one, two, and up to seventeen digits.  On
each grid only the two neighbours of the value can be candidates; a candidate
counts if its nearest rank is the number's own.  If both neighbours count,
the nearer one is written, and of two equally near ones the larger.
-/
import TreebankGrammar.Number.Scientific

namespace TreebankGrammar

namespace Decimal

/-- The decimal with the given count of digits that reads back as the
magnitude of the given rank, if there is one; `place` is the place of the
magnitude's first digit. -/
def readingBack? (rank place digits : Nat) : Option Decimal :=
  let (num, den) := onGrid digits place (magnitude rank)
  let below : Decimal := ⟨num / den, gridExponent digits place⟩
  let above : Decimal := ⟨num / den + 1, gridExponent digits place⟩
  let nearer := if 2 * (num % den) < den then below else above
  let farther := if 2 * (num % den) < den then above else below
  if nearer.rank = rank then some nearer
  else if farther.rank = rank then some farther
  else none

/-- The shortest decimal that reads back as the magnitude of the given
rank.  Seventeen digits always suffice. -/
def shortest (rank : Nat) : Decimal :=
  let units := magnitude rank
  ((List.range' 1 17).findSome? (readingBack? rank (place units))).getD
    (ofUnits 17 units)

/-- A decimal written out without an exponent; a fraction ends in a digit
other than zero. -/
def positional (d : Decimal) : Text :=
  if 0 ≤ d.exponent then
    Text.ofNat d.coefficient ++ List.replicate d.exponent.toNat '0'
  else
    let places := (-d.exponent).toNat
    let digits := Text.ofNatPadded (places + 1) d.coefficient
    let whole := digits.take (digits.length - places)
    let padded := digits.drop (digits.length - places)
    let fraction := (padded.reverse.dropWhile (· == '0')).reverse
    if fraction.isEmpty then whole else whole ++ ['.'] ++ fraction

end Decimal

namespace Binary64

/-- A number in its shortest positional form. -/
def positional : Binary64 → Text
  | nan => ['N', 'a', 'N']
  | infinity negative => signText negative ++ ['i', 'n', 'f']
  | finite negative rank =>
    signText negative ++
      if rank.val = 0 then ['0'] else (Decimal.shortest rank).positional

end Binary64

end TreebankGrammar
