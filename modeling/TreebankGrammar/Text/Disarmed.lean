/-
TreebankGrammar/Text/Disarmed.lean

Texts as a log shows them.

A log may be read in a terminal, and a terminal takes some control
characters as the beginning of a command.  Those are written out as code
points; all else, tabs and line breaks included, stays as it is.
-/
import TreebankGrammar.Text.Quoted

namespace TreebankGrammar

/-- The ASCII controls that a terminal obeys: bell, backspace, form feed,
escape and delete. -/
def terminalControls : List Nat := [0x07, 0x08, 0x0C, 0x1B, 0x7F]

/-- The controls beyond ASCII, as closed ranges. -/
def upperControlRanges : List (Nat × Nat) := [(0x80, 0x9F)]

/-- A character as a log shows it: an ASCII control that a terminal obeys by
two hexadecimal digits, a control beyond ASCII by its code point. -/
def disarmChar (c : Char) : Text :=
  if terminalControls.contains c.toNat then
    ['\\', 'x'] ++ List.leftpad 2 '0' (Nat.toDigits 16 c.toNat)
  else if inRanges upperControlRanges c then codePointEscape c
  else [c]

/-- A text as a log shows it. -/
def Text.disarmed (t : Text) : Text := t.flatMap disarmChar

end TreebankGrammar
