/-
TreebankGrammar/Text/Lines.lean

Files as lines of text.

A file is a sequence of bytes; its text is encoded in UTF-8.  A line ends
with a newline, and a carriage return right before the newline belongs to
the line's end.  What stands after the last newline is a line too, unless it
is empty, and keeps its carriage return.

Design.  Lines are cut on bytes and decoded one by one, since a reader has to
accept the lines before one that is not valid text.  A line that cannot be
decoded is `none`.
-/
import TreebankGrammar.Text.Basic

namespace TreebankGrammar

/-! ### Encoding -/

/-- The bytes of a text in UTF-8. -/
def Text.encode (t : Text) : Bytes := t.flatMap String.utf8EncodeChar

/-- The text with the given bytes in UTF-8, if they are valid. -/
def Bytes.decode? (bytes : Bytes) : Option Text :=
  bytes.toByteArray.utf8Decode?.map Array.toList

theorem Text.encode_append (s t : Text) :
    Text.encode (s ++ t) = Text.encode s ++ Text.encode t :=
  List.flatMap_append

/-- Every text is read back from its bytes. -/
@[simp] theorem Bytes.decode?_encode (t : Text) :
    Bytes.decode? (Text.encode t) = some t := by
  have h : (Text.encode t).toByteArray.utf8Decode? = some t.toArray :=
    List.utf8Decode?_utf8Encode
  rw [Bytes.decode?, h]
  rfl

/-! ### Lines -/

/-- The newline byte. -/
def newline : UInt8 := 10

/-- The carriage return byte. -/
def carriageReturn : UInt8 := 13

namespace Bytes

/-- A line without the carriage return that belongs to its end. -/
def withoutReturn (line : Bytes) : Bytes :=
  if line.getLast? = some carriageReturn then line.dropLast else line

/-- Completes the pieces between newlines to lines: all but the last piece
ended with a newline, and an empty last piece is no line. -/
def linesOfPieces : Bytes → List Bytes → List Bytes
  | last, [] => if last.isEmpty then [] else [last]
  | line, next :: others => withoutReturn line :: linesOfPieces next others

/-- The lines of a file as bytes. -/
def rawLines (bytes : Bytes) : List Bytes :=
  let (first, others) := cutAll (· == newline) bytes
  linesOfPieces first others

/-- The lines of a file, `none` where a line is not valid text. -/
def lines (bytes : Bytes) : List (Option Text) := (rawLines bytes).map decode?

end Bytes

end TreebankGrammar
