/-
TreebankGrammar/RuleFile/Distribution.lean

Checking that each tag's probabilities sum to one.

The probabilities of a tag are added in the order of the file, starting from
zero, each sum rounded to a number.  The check allows a distance from one
that leaves room for the seven digits with which probabilities are written.
A total that is not a number has no distance from one, and passes.
-/
import TreebankGrammar.RuleFile.Reader

namespace TreebankGrammar

/-- The distance from one that a total may have: the number nearest to ten
to the -6. -/
def sumTolerance : Binary64 :=
  Binary64.nearest false unitsPerOne (tenTo 6)

/-- Whether a total is too far from one. -/
def isUnbalanced (total : Binary64) : Bool :=
  sumTolerance.lt (total.sub Binary64.one).abs

/-- Adds a probability to the total of its tag; a tag's total starts from
zero. -/
def addToTotal (tag : Text) (p : Binary64) :
    List (Text × Binary64) → List (Text × Binary64)
  | [] => [(tag, Binary64.zero.add p)]
  | (other, total) :: rest =>
    if other = tag then (other, total.add p) :: rest
    else (other, total) :: addToTotal tag p rest

/-- The totals of all tags, in the order in which the tags first occur. -/
def totals (rules : List WeightedRule) : List (Text × Binary64) :=
  rules.foldl
    (fun sums rule => addToTotal rule.production.lhs rule.probability sums) []

/-- Checks that each tag's probabilities sum to one; the error names the
first tag for which they do not. -/
def verify (rules : List WeightedRule) : Except Error Unit :=
  match (totals rules).find? fun (_, total) => isUnbalanced total with
  | some (tag, total) => .error (.invalidDistribution tag total)
  | none => .ok ()

end TreebankGrammar
