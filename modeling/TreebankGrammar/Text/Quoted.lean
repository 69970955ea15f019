/-
TreebankGrammar/Text/Quoted.lean

Texts in quotes, as messages and log lines show them.

A quoted text shows every character: the quote and the backslash follow a
backslash, the common controls have a letter, and a character that would not
show by itself is written as its code point in braces.  An apostrophe needs
no escape.
-/
import TreebankGrammar.Text.Basic
import TreebankGrammar.Text.UnprintableTable

namespace TreebankGrammar

/-- Whether a character would not show by itself. -/
def isUnprintable (c : Char) : Bool := inRanges unprintableRanges c

/-- The code point of a character in lowercase hexadecimal digits. -/
def codePointEscape (c : Char) : Text :=
  ['\\', 'u', '{'] ++ Nat.toDigits 16 c.toNat ++ ['}']

/-- A character as it stands between quotes. -/
def escapeChar (c : Char) : Text :=
  if c = '"' then ['\\', '"']
  else if c = '\\' then ['\\', '\\']
  else if c = '\t' then ['\\', 't']
  else if c = '\r' then ['\\', 'r']
  else if c = '\n' then ['\\', 'n']
  else if c = Char.ofNat 0 then ['\\', '0']
  else if isUnprintable c then codePointEscape c
  else [c]

/-- A text in quotes. -/
def Text.quoted (t : Text) : Text := ['"'] ++ t.flatMap escapeChar ++ ['"']

end TreebankGrammar
