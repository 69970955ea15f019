/-
TreebankGrammar/Text/Upper.lean

Uppercase forms of texts.

The mapping is the full one of Unicode: one character may become up to three,
and a character without an uppercase form stays as it is.  It looks at each
character by itself, so the uppercase form of a text is put together from
those of its characters; there is no normalization.
-/
import TreebankGrammar.Text.Basic
import TreebankGrammar.Text.UpperTable

namespace TreebankGrammar

/-- The image of a code point under a run, if the run maps it. -/
def CaseRun.image? (run : CaseRun) (n : Nat) : Option Nat :=
  if run.first ≤ n ∧ n ≤ run.last ∧ (n - run.first) % run.step = 0 then
    some (run.target + (n - run.first))
  else none

/-- The uppercase form of a character. -/
def upperChar (c : Char) : Text :=
  match upperRuns.findSome? fun run => run.image? c.toNat with
  | some image => [Char.ofNat image]
  | none =>
    match upperExpansions.lookup c.toNat with
    | some images => images.map Char.ofNat
    | none => [c]

/-- The uppercase form of a text. -/
def Text.upper (t : Text) : Text := t.flatMap upperChar

end TreebankGrammar
