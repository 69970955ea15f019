/-
TreebankGrammar/Text/Basic.lean

Texts and byte sequences.

Everything a grammar is made of (words, tags, lines, whole files) is text,
and every statement about it is an induction over characters.  So a text is
a list of characters and a file is a list of bytes; strings appear only
where wording for a person is put together.

Design.  The one cutting operation is `cutAll`: it cuts a list at every
element of a class and keeps the empty pieces.  Words are its nonempty
pieces at blanks, lines its pieces at newlines.  It is a right fold, so a
long input needs no deep stack and a short one evaluates by unfolding.
`breakOn` cuts a text at the first occurrence of a mark.  Classes of
characters that come from a standard are lists of closed ranges of code
points (`inRanges`).
-/

namespace TreebankGrammar

/-- A text: a word, a tag, a line or a whole file, as its characters. -/
abbrev Text := List Char

/-- The content of a file. -/
abbrev Bytes := List UInt8

/-! ### Classes of characters -/

/-- Whether a character's code point lies in one of the closed ranges. -/
def inRanges (ranges : List (Nat × Nat)) (c : Char) : Bool :=
  ranges.any fun (first, last) => first ≤ c.toNat && c.toNat ≤ last

/-! ### Cutting at a class of elements -/

/-- Cuts a list at every element of the class `p`: the piece before the
first cut and the pieces after it.  The elements of `p` themselves are
dropped, empty pieces are kept. -/
def cutAll {α : Type} (p : α → Bool) (xs : List α) :
    List α × List (List α) :=
  xs.foldr
    (fun x pieces =>
      if p x then ([], pieces.1 :: pieces.2) else (x :: pieces.1, pieces.2))
    ([], [])

@[simp] theorem cutAll_nil {α : Type} (p : α → Bool) :
    cutAll p [] = ([], []) := rfl

theorem cutAll_cons {α : Type} (p : α → Bool) (x : α) (xs : List α) :
    cutAll p (x :: xs) =
      if p x then ([], (cutAll p xs).1 :: (cutAll p xs).2)
      else (x :: (cutAll p xs).1, (cutAll p xs).2) := rfl

/-! ### Cutting at a mark -/

namespace Text

/-- The text before and after the first occurrence of `mark`, or `none` if
`mark` does not occur. -/
def breakOn (mark : Text) : Text → Option (Text × Text)
  | [] => if mark = [] then some ([], []) else none
  | c :: rest =>
    match List.isPrefixOf? mark (c :: rest) with
    | some after => some ([], after)
    | none =>
      (breakOn mark rest).map fun (before, after) => (c :: before, after)

/-- The texts in order with `separator` between neighbours. -/
def join (separator : Text) (ts : List Text) : Text :=
  List.intercalate separator ts

/-- The text as a string, for messages. -/
def string (t : Text) : String := String.ofList t

/-! ### Decimal digits -/

/-- The decimal digits of `n`. -/
def ofNat (n : Nat) : Text := Nat.toDigits 10 n

/-- The decimal digits of `n`, filled up with zeros on the left to at least
`width` characters. -/
def ofNatPadded (width n : Nat) : Text :=
  List.leftpad width '0' (ofNat n)

end Text

end TreebankGrammar
