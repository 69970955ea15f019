/-
TreebankGrammar/Number/Numeral.lean

Numerals: texts that denote a number.

Two classes of text are told apart.  A token *looks numeric* if it is made
of the characters that numerals are made of; this decides which form a
listing line has.  A *numeral* also has the shape of a number:

    [+-]? (digits [. digits?] | . digits) ([eE] [+-]? digits)?

The value of a numeral is the number nearest to the decimal it denotes; it
is never "not a number", but it may be infinite, and a minus sign is kept
even on zero.  A power of ten is read as far as to its first value above
65535.  What follows makes no difference to a numeral of fewer than sixty
thousand digits, since its number is zero or infinite by then.
-/
import TreebankGrammar.Number.Decimal
import TreebankGrammar.Text.Basic

namespace TreebankGrammar

/-- Whether a character occurs in numerals. -/
def isNumeralChar (c : Char) : Bool :=
  c.isDigit || c == '.' || c == 'e' || c == 'E' || c == '+' || c == '-'

/-- Whether a token looks numeric: it is not empty and made of characters
of numerals only. -/
def looksNumeric (t : Text) : Bool := !t.isEmpty && t.all isNumeralChar

/-- A numeral taken apart: its sign and the decimal of its digits. -/
structure Numeral where
  negative : Bool
  decimal : Decimal
  deriving DecidableEq

namespace Numeral

/-- The value of a text of digits. -/
def digitsValue (t : Text) : Nat := Nat.ofDigitChars 10 t 0

/-- Splits off an optional sign: whether it is a minus, and the rest. -/
def takeSign : Text → Bool × Text
  | '+' :: rest => (false, rest)
  | '-' :: rest => (true, rest)
  | t => (false, t)

/-- Splits off an optional point with the digits after it. -/
def takeFraction : Text → Text × Text
  | '.' :: rest => (rest.takeWhile Char.isDigit, rest.dropWhile Char.isDigit)
  | t => ([], t)

/-- Reads an optional sign, then at least one digit and nothing else, given
the value of a text of digits. -/
def signed? (valueOf : Text → Nat) (t : Text) : Option Int :=
  let (negative, digits) := takeSign t
  if digits.isEmpty || !digits.all Char.isDigit then none
  else
    let value : Int := valueOf digits
    some (if negative then -value else value)

/-- Reads an integer. -/
def integer? (t : Text) : Option Int := signed? digitsValue t

/-- The largest value after which a power of ten takes another digit. -/
def powerLimit : Nat := 65535

/-- The value of the digits of a power of ten. -/
def powerValue (t : Text) : Nat :=
  t.foldl
    (fun n c => if n ≤ powerLimit then 10 * n + (c.toNat - '0'.toNat) else n)
    0

/-- Reads the power of ten at the end of a numeral; no text is the power
zero. -/
def exponent? : Text → Option Int
  | [] => some 0
  | mark :: rest =>
    if mark = 'e' ∨ mark = 'E' then signed? powerValue rest else none

/-- Reads a numeral. -/
def parse? (t : Text) : Option Numeral :=
  let (negative, body) := takeSign t
  let whole := body.takeWhile Char.isDigit
  let (fraction, tail) := takeFraction (body.dropWhile Char.isDigit)
  if (whole ++ fraction).isEmpty then none
  else
    (exponent? tail).map fun power =>
      ⟨negative, digitsValue (whole ++ fraction), power - fraction.length⟩

/-- The number nearest to a numeral. -/
def value (n : Numeral) : Binary64 :=
  Binary64.ofRank n.negative n.decimal.clamp.rank

end Numeral

end TreebankGrammar
