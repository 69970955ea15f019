/-
TreebankGrammar/Text/Blank.lean

Blanks, words and trimming.

The class of blanks is the White_Space property of Unicode, not the ASCII
blanks alone: a listing may separate its words by any of them.  A text's
words are the nonempty pieces between blanks, and trimming removes blanks
at both ends only.
-/
import TreebankGrammar.Text.Basic

namespace TreebankGrammar

/-- The code points with the White_Space property, as closed ranges. -/
def blankRanges : List (Nat × Nat) :=
  [(0x09, 0x0D), (0x20, 0x20), (0x85, 0x85), (0xA0, 0xA0), (0x1680, 0x1680),
    (0x2000, 0x200A), (0x2028, 0x2029), (0x202F, 0x202F), (0x205F, 0x205F),
    (0x3000, 0x3000)]

/-- Whether a character separates words. -/
def isBlank (c : Char) : Bool := inRanges blankRanges c

namespace Text

/-- The words of a text: its maximal runs of characters that are not
blank, in order. -/
def words (t : Text) : List Text :=
  let (first, others) := cutAll isBlank t
  (first :: others).filter fun piece => !piece.isEmpty

/-- The text without the blanks before its first word and after its last. -/
def trim (t : Text) : Text :=
  ((t.dropWhile isBlank).reverse.dropWhile isBlank).reverse

end Text

end TreebankGrammar
