/-
TreebankGrammar/Listing/Normalized.lean

Productions in normal form.

A line may mix words and non-terminals among its children.  Normalizing it
replaces every word that has siblings by its preterminal and adds the
preterminals' own productions.  A word that is the only child stays.

The preterminal productions come in the order of the words' first
occurrence, one for each distinct word.  Words that differ only in case have
the same preterminal; both of their productions are listed, so that the
conflict between them is seen later on.
-/
import TreebankGrammar.Distinct
import TreebankGrammar.Production
import TreebankGrammar.Listing.Line

namespace TreebankGrammar

/-- A line's production in normal form, and the preterminal productions it
relies on. -/
structure Normalized where
  rule : Production
  preterminals : List Production
  deriving DecidableEq

namespace Normalized

/-- The symbol of a child: a word among siblings is replaced by its
preterminal. -/
def childSymbol (siblings : Bool) (child : Text) : Symbol :=
  match Symbol.ofListing child with
  | .terminal word =>
    if siblings then Symbol.preterminalFor word else .terminal word
  | symbol => symbol

/-- The words among children that are to be replaced. -/
def replacedWords (siblings : Bool) (children : List Text) : List Text :=
  if siblings then children.filter fun child => !Symbol.startsUppercase child
  else []

/-- The normal form of a tag with the given children. -/
def ofChildren (tag : Text) (children : List Text) : Normalized :=
  let siblings := decide (1 < children.length)
  { rule := ⟨tag, children.map (childSymbol siblings)⟩
    preterminals :=
      (distinct (replacedWords siblings children)).map
        Production.preterminalFor }

end Normalized

/-- The normal form of a line. -/
def Line.normalized (line : Line) : Normalized :=
  Normalized.ofChildren line.tag line.children

end TreebankGrammar
