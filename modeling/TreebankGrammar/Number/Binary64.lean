/-
TreebankGrammar/Number/Binary64.lean

Probabilities as binary floating point numbers of 64 bits.

A finite number is its sign and the *rank* of its magnitude: its place, from
zero up, among all finite magnitudes.  The rank is also the number's bit
pattern without the sign.  Every finite magnitude is a whole number of units
of 2^-1074, so all arithmetic here is exact arithmetic on naturals followed
by one rounding.

Design.  There is one rounding function, `nearestRank`, from a quotient of
naturals (in units) to a rank.  It serves conversion from integers, sums,
reciprocals and the reading of decimals.  A rank past the largest finite one
is an infinity.  Equality of numbers as values of this type tells the two
zeros apart; the numeric order `lt` does not.
-/
import TreebankGrammar.Number.Rounding

namespace TreebankGrammar

/-! ### Ranks -/

/-- The number of units of 2^-1074 in one. -/
def unitsPerOne : Nat := 1 <<< 1074

/-- The number of ranks in a block: the magnitudes of a block have the same
spacing. -/
def blockSize : Nat := 1 <<< 52

/-- The rank of infinity: one past the largest finite rank. -/
def infinityRank : Nat := 2047 * blockSize

/-- The magnitude with a given rank, in units.  The first two blocks are
consecutive numbers of units; every later block has twice the spacing of the
one before. -/
def magnitude (rank : Nat) : Nat :=
  if rank < blockSize then rank
  else (blockSize + rank % blockSize) <<< (rank / blockSize - 1)

/-- The rank of the magnitude nearest to `num / den` units, ties going to
the even rank.  The spacing near the quotient is two to the `shift`; a
quotient that rounds up to the first magnitude of the next block gets that
magnitude's rank by itself. -/
def nearestRank (num den : Nat) : Nat :=
  let shift := (num / den).log2 - 52
  shift * blockSize + divHalfEven num (den <<< shift)

/-! ### Numbers -/

/-- A number: not a number, an infinity, or a sign with the rank of a finite
magnitude. -/
inductive Binary64 where
  | nan
  | infinity (negative : Bool)
  | finite (negative : Bool) (rank : Fin infinityRank)
  deriving DecidableEq

namespace Binary64

/-- The number with a given sign and rank, infinite if the rank is not that
of a finite magnitude. -/
def ofRank (negative : Bool) (rank : Nat) : Binary64 :=
  if h : rank < infinityRank then finite negative ⟨rank, h⟩
  else infinity negative

/-- The number nearest to `num / den` units of 2^-1074. -/
def nearest (negative : Bool) (num den : Nat) : Binary64 :=
  ofRank negative (nearestRank num den)

/-- The number nearest to a natural. -/
def ofNat (n : Nat) : Binary64 :=
  nearest false (n * unitsPerOne) 1

/-- Zero, with the positive sign. -/
def zero : Binary64 := ofNat 0

/-- One. -/
def one : Binary64 := ofNat 1

/-! ### Bit patterns -/

/-- The value of the sign bit. -/
def signBit (negative : Bool) : Nat := if negative then 1 <<< 63 else 0

/-- The number with a given pattern of 64 bits: the sign bit first, then the
rank.  Every pattern past infinity's is not a number. -/
def ofBits (bits : Nat) : Binary64 :=
  let rank := bits % signBit true
  if rank ≤ infinityRank then ofRank (bits.testBit 63) rank else nan

/-- The pattern of 64 bits of a number; the quiet pattern with the positive
sign stands for what is not a number. -/
def toBits : Binary64 → Nat
  | nan => infinityRank + blockSize / 2
  | infinity negative => signBit negative + infinityRank
  | finite negative rank => signBit negative + rank

/-! ### Arithmetic -/

/-- The number with the opposite sign. -/
def neg : Binary64 → Binary64
  | nan => nan
  | infinity negative => infinity (!negative)
  | finite negative rank => finite (!negative) rank

/-- The number without its sign. -/
def abs : Binary64 → Binary64
  | nan => nan
  | infinity _ => infinity false
  | finite _ rank => finite false rank

/-- A finite number as a signed count of units. -/
def units (negative : Bool) (rank : Nat) : Int :=
  if negative then -(magnitude rank : Int) else magnitude rank

/-- The sum of two numbers: the exact sum, rounded once.  An exact zero is
negative only if both summands are. -/
def add : Binary64 → Binary64 → Binary64
  | nan, _ => nan
  | _, nan => nan
  | infinity s, infinity t => if s = t then infinity s else nan
  | infinity s, finite _ _ => infinity s
  | finite _ _, infinity t => infinity t
  | finite s a, finite t b =>
    let sum := units s a + units t b
    let negative := if sum = 0 then s && t else decide (sum < 0)
    nearest negative sum.natAbs 1

/-- The difference of two numbers. -/
def sub (x y : Binary64) : Binary64 := add x (neg y)

/-- The quotient of one and a number: the exact quotient, rounded once. -/
def reciprocal : Binary64 → Binary64
  | nan => nan
  | infinity negative => ofRank negative 0
  | finite negative rank =>
    if rank.val = 0 then infinity negative
    else nearest negative (unitsPerOne * unitsPerOne) (magnitude rank)

/-! ### Order -/

/-- A number's place on the line, both zeros at the same place; what is not
a number has none. -/
def place? : Binary64 → Option Int
  | nan => none
  | infinity negative =>
    some (if negative then -infinityRank else infinityRank)
  | finite negative rank =>
    some (if negative then -(rank.val : Int) else rank.val)

/-- Whether one number lies below another; false if either is not a
number. -/
def lt (x y : Binary64) : Bool :=
  match x.place?, y.place? with
  | some a, some b => decide (a < b)
  | _, _ => false

end Binary64

end TreebankGrammar
