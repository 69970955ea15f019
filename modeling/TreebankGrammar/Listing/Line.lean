/-
TreebankGrammar/Listing/Line.lean

Lines of a grammar listing.

A line is a sequence of words in one of two forms,

    TAG SEPARATOR CHILD ...
    NUMBER NUMBER TAG SEPARATOR CHILD ...

and the second one carries the parameters of a Dirichlet prior.  The
parameters and the separator are read and dropped.  A line is of the second
form as soon as its first word looks numeric, so that a tag cannot look
numeric in the first form but may in the second.
-/
import TreebankGrammar.Text.Blank
import TreebankGrammar.Number.Numeral

namespace TreebankGrammar

/-- How a line encodes its production. -/
inductive LineForm where
  | plain
  | dirichlet
  deriving DecidableEq

/-- The name of a line form. -/
def LineForm.label : LineForm → String
  | plain => "Plain"
  | dirichlet => "Dirichlet"

/-- What can be wrong with a line. -/
inductive LineFault where
  | secondParameter
  | wordCount
  deriving DecidableEq

/-- The wording of a line fault. -/
def LineFault.reason : LineFault → String
  | secondParameter => "second Dirichlet prior parameter is not numeric"
  | wordCount => "wrong number of tokens"

/-- A line of a listing, taken apart. -/
structure Line where
  form : LineForm
  tag : Text
  children : List Text
  deriving DecidableEq

namespace Line

/-- The line with the given words after its parameters: a tag, a separator
and at least one child. -/
def ofFields (form : LineForm) : List Text → Except LineFault Line
  | tag :: _ :: child :: children => .ok ⟨form, tag, child :: children⟩
  | _ => .error .wordCount

/-- The line with the given words. -/
def ofWords : List Text → Except LineFault Line
  | [] => .error .wordCount
  | [first] =>
    if looksNumeric first then .error .secondParameter
    else .error .wordCount
  | first :: second :: others =>
    if looksNumeric first then
      if looksNumeric second then ofFields .dirichlet others
      else .error .secondParameter
    else ofFields .plain (first :: second :: others)

/-- Reads a line. -/
def parse (text : Text) : Except LineFault Line := ofWords (Text.words text)

end Line

end TreebankGrammar
