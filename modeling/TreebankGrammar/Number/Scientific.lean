/-
TreebankGrammar/Number/Scientific.lean

The form in which probabilities are written: seven significant digits with a
point after the first, then the power of ten with its sign and at least two
digits, as in `3.333333e-01`.

The seven digits are the decimal nearest to the exact value of the number, a
half going to the even last digit.  Zero keeps its sign.
-/
import TreebankGrammar.Number.Decimal
import TreebankGrammar.Text.Basic

namespace TreebankGrammar

namespace Decimal

/-- A decimal of seven digits as text, its exponent moved to the first
digit. -/
def scientific (d : Decimal) : Text :=
  let exponent := d.exponent + 6
  let digits := Text.ofNatPadded 7 d.coefficient
  digits.take 1 ++ ['.'] ++ digits.drop 1 ++
    ['e', if exponent < 0 then '-' else '+'] ++
    Text.ofNatPadded 2 exponent.natAbs

end Decimal

namespace Binary64

/-- The sign of a number as text. -/
def signText (negative : Bool) : Text := if negative then ['-'] else []

/-- A number in scientific form. -/
def scientific : Binary64 → Text
  | nan => ['N', 'a', 'N']
  | infinity negative => signText negative ++ ['i', 'n', 'f']
  | finite negative rank =>
    let d :=
      if rank.val = 0 then ⟨0, -6⟩
      else Decimal.ofUnits 7 (magnitude rank)
    signText negative ++ d.scientific

end Binary64

end TreebankGrammar
