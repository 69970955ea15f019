/-
TreebankGrammar/RuleFile/Reader.lean

Reading rule files.

Blank lines are skipped, but counted: a line number is the line's place in
the file.  Reading stops at the first line that is not valid text or not a
rule, and the error holds the line as it stands in the file.
-/
import TreebankGrammar.Error
import TreebankGrammar.Text.Lines

namespace TreebankGrammar

/-- Reads lines of a rule file, the first of them having the given
number. -/
def readRuleLines : Nat → List (Option Text) →
    Except Error (List WeightedRule)
  | _, [] => .ok []
  | _, none :: _ => .error .invalidText
  | lineNo, some line :: lines =>
    if (Text.trim line).isEmpty then readRuleLines (lineNo + 1) lines
    else
      match WeightedRule.parse line with
      | .error fault => .error (.malformedRule lineNo line fault)
      | .ok rule => (readRuleLines (lineNo + 1) lines).map (rule :: ·)

/-- Reads a rule file. -/
def readRules (file : Bytes) : Except Error (List WeightedRule) :=
  readRuleLines 1 file.lines

end TreebankGrammar
