/-
TreebankGrammar/RuleFile/Rule.lean

Lines of a rule file, written and read.

A line holds one production with its probability, `TAG->[CHILDREN] : P`.  To
read it, it is trimmed and cut at the first `->[` and, after it, at the first
`] : `.  What stands before the first cut is the tag, between the cuts the
children, after the second the probability.

A line may have more than one fault.  The reader reports the first of: a cut
that is not found, an empty tag, a probability that is no number or is
negative, no children, children that mix terminals and non-terminals.
-/
import TreebankGrammar.Number.Numeral
import TreebankGrammar.Production
import TreebankGrammar.Text.Blank

namespace TreebankGrammar

/-! ### Writing -/

/-- The mark between the expansion and the probability in a rule file. -/
def closeMark : Text := [']', ' ', ':', ' ']

/-- The line of a production with the given text of its probability. -/
def ruleLine (tag : Text) (probability : Text) (e : Expansion) : Text :=
  tag ++ Production.openMark ++ e.written ++ closeMark ++ probability ++
    ['\n']

/-! ### Reading -/

/-- What can be wrong with a line of a rule file. -/
inductive RuleFault where
  | noOpening
  | noClosing
  | emptyTag
  | notANumber
  | negative
  | noChildren
  | mixedChildren
  deriving DecidableEq

/-- The wording of a rule fault. -/
def RuleFault.reason : RuleFault → String
  | noOpening => "did not find \"->[\" after the tag"
  | noClosing => "did not find \"] : \" after the children"
  | emptyTag => "empty tag"
  | notANumber => "probability is not a number"
  | negative => "probability is negative"
  | noChildren => "no children"
  | mixedChildren => "children mix terminals and non-terminals"

/-- A production with its probability. -/
structure WeightedRule where
  production : Production
  probability : Binary64
  deriving DecidableEq

namespace WeightedRule

/-- Reads a probability. -/
def probability? (text : Text) : Except RuleFault Binary64 :=
  match if looksNumeric text then Numeral.parse? text else none with
  | none => .error .notANumber
  | some numeral =>
    if numeral.value.lt Binary64.zero then .error .negative
    else .ok numeral.value

/-- Reads the children of a production. -/
def expansion? (text : Text) : Except RuleFault Expansion :=
  let symbols := (Text.words text).map Symbol.ofRuleFile
  if symbols.isEmpty then .error .noChildren
  else if Expansion.isHomogeneous symbols then .ok symbols
  else .error .mixedChildren

/-- Puts a rule together from the texts of its parts. -/
def ofParts (tag children probability : Text) :
    Except RuleFault WeightedRule :=
  if tag.isEmpty then .error .emptyTag
  else
    match probability? probability with
    | .error fault => .error fault
    | .ok p =>
      match expansion? children with
      | .error fault => .error fault
      | .ok e => .ok ⟨⟨tag, e⟩, p⟩

/-- Reads a line of a rule file. -/
def parse (line : Text) : Except RuleFault WeightedRule :=
  match Text.breakOn Production.openMark (Text.trim line) with
  | none => .error .noOpening
  | some (tag, rest) =>
    match Text.breakOn closeMark rest with
    | none => .error .noClosing
    | some (children, probability) => ofParts tag children probability

end WeightedRule

end TreebankGrammar
