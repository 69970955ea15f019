/-
TreebankGrammar/Command/Path.lean

Paths.

A path is a text cut at slashes.  Its parts are the nonempty pieces; a slash
in front makes it start at the root, and a slash at the end says that it
leads to a folder.  A part is a name, or one of the two that move: one dot
stays in a folder, two dots lead to the folder above.

Paths and names may not be arbitrarily long, and their length is counted in
bytes.
-/
import TreebankGrammar.Text.Lines

namespace TreebankGrammar.Command

/-- The parts of a path, and what the slashes at its ends say. -/
structure Path where
  fromRoot : Bool
  parts : List Text
  closed : Bool
  deriving DecidableEq

namespace Path

/-- The most bytes that a path may have. -/
def longest : Nat := 4095

/-- The most bytes that a name may have. -/
def longestName : Nat := 255

/-- The part that stays in a folder. -/
def same : Text := ['.']

/-- The part that leads to the folder above. -/
def above : Text := ['.', '.']

/-- Whether a text has more bytes than a limit. -/
def isLongerThan (limit : Nat) (t : Text) : Bool :=
  limit < (Text.encode t).length

/-- Takes a path apart. -/
def ofText (t : Text) : Path :=
  let (first, others) := cutAll (· == '/') t
  { fromRoot := t.head? == some '/'
    parts := (first :: others).filter fun piece => !piece.isEmpty
    closed := t.getLast? == some '/' }

end Path

end TreebankGrammar.Command
