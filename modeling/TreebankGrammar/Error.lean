/-
TreebankGrammar/Error.lean

What can go wrong when a listing is converted or a rule file is read.

An error names its cause and what is needed to find it; the wording is in
`Error.message` alone.  Line numbers count from one.
-/
import TreebankGrammar.RuleFile.Rule
import TreebankGrammar.RuleTable
import TreebankGrammar.Listing.Line
import TreebankGrammar.Number.Shortest
import TreebankGrammar.Text.Quoted

namespace TreebankGrammar

/-- An error in a listing, in a rule file, or in reading or writing them. -/
inductive Error where
  /-- A line of a listing is not of either form. -/
  | malformedLine (lineNo : Nat) (line : Text) (fault : LineFault)
  /-- A registered preterminal would get a second expansion. -/
  | preterminalConflict (lineNo : Nat) (conflict : Conflict)
  /-- A line of a rule file is not a rule. -/
  | malformedRule (lineNo : Nat) (line : Text) (fault : RuleFault)
  /-- The probabilities of a tag do not sum to one. -/
  | invalidDistribution (tag : Text) (total : Binary64)
  /-- A line is not valid text. -/
  | invalidText
  /-- The receiver of a rule file has no room left. -/
  | outputFull
  deriving DecidableEq

namespace Error

/-- The message about a line that could not be read. -/
def lineMessage (what reason : String) (lineNo : Nat) (line : Text) :
    String :=
  s!"malformed {what} {lineNo} ({reason}): {(Text.quoted line).string}"

/-- The wording of an error. -/
def message : Error → String
  | malformedLine lineNo line fault =>
    lineMessage "line" fault.reason lineNo line
  | preterminalConflict lineNo conflict =>
    s!"preterminal conflict on line {lineNo}: " ++
      s!"{conflict.preterminal.string} already rewrites to " ++
      s!"[{conflict.existing.string}], cannot add " ++
      s!"[{conflict.requested.string}]"
  | malformedRule lineNo line fault =>
    lineMessage "rule on line" fault.reason lineNo line
  | invalidDistribution tag total =>
    s!"probabilities for {tag.string} sum to " ++
      s!"{total.positional.string}, expected 1"
  | invalidText => "stream did not contain valid UTF-8"
  | outputFull => "failed to write whole buffer"

end Error

end TreebankGrammar
