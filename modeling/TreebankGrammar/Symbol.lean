/-
TreebankGrammar/Symbol.lean

Grammar symbols.

A symbol is a non-terminal, a terminal word, or a preterminal: a non-terminal
made up for a word that stands beside other children, and which expands to
that word only.  It is named `P_` and the word in capitals.

Design.  In a rule file a terminal carries a leading underscore and the other
two kinds are written as their names, so a preterminal and a non-terminal of
one name cannot be told apart there.  Nor do they differ anywhere in a
grammar: symbols are compared in their plain form, which forgets whether a
name was made up.  The kind is kept beside it, since a symbol shows it.

Main results: the plain form of a symbol is determined by its kind of leaf
and its name (`plain_eq_iff`), and reading a written symbol back loses
nothing that is written (`written_ofRuleFile`).
-/
import TreebankGrammar.Text.Upper

namespace TreebankGrammar

/-- A grammar symbol. -/
inductive Symbol where
  | nonterminal (name : Text)
  | preterminal (name : Text)
  | terminal (word : Text)
  deriving DecidableEq

namespace Symbol

/-! ### Kinds and names -/

/-- The name of a symbol; a terminal's name is its word. -/
def name : Symbol → Text
  | nonterminal name => name
  | preterminal name => name
  | terminal word => word

/-- Whether a symbol is a terminal. -/
def isTerminal : Symbol → Bool
  | terminal _ => true
  | _ => false

/-- Whether a symbol can be expanded; preterminals can. -/
def isNonterminal (s : Symbol) : Bool := !s.isTerminal

/-- Whether a symbol was made up for a word. -/
def isPreterminal : Symbol → Bool
  | preterminal _ => true
  | _ => false

/-- A symbol with the distinction between preterminals and other
non-terminals forgotten.  Symbols with the same plain form are the same
symbol of the grammar. -/
def plain : Symbol → Symbol
  | preterminal name => nonterminal name
  | s => s

theorem plain_eq_iff {s t : Symbol} :
    s.plain = t.plain ↔ s.isTerminal = t.isTerminal ∧ s.name = t.name := by
  cases s <;> cases t <;> simp [plain, isTerminal, name]

@[simp] theorem isTerminal_plain (s : Symbol) :
    s.plain.isTerminal = s.isTerminal := by
  cases s <;> rfl

theorem plain_eq_terminal_iff {s : Symbol} {word : Text} :
    s.plain = terminal word ↔ s = terminal word := by
  cases s <;> simp [plain]

/-! ### Written forms -/

/-- The mark in front of a terminal in a rule file. -/
def terminalMark : Char := '_'

/-- The beginning of a preterminal's name. -/
def preterminalMark : Text := ['P', '_']

/-- A symbol as it stands in a rule file. -/
def written : Symbol → Text
  | nonterminal name => name
  | preterminal name => name
  | terminal word => terminalMark :: word

@[simp] theorem written_plain (s : Symbol) :
    s.plain.written = s.written := by
  cases s <;> rfl

/-- A symbol with its kind spelled out. -/
def described : Symbol → String
  | nonterminal name => "NonTerminal::" ++ name.string
  | preterminal name => "Preterminal::" ++ name.string
  | terminal word => "Terminal::\x7b \"" ++ word.string ++ "\" \x7d"

/-! ### Reading symbols -/

/-- Whether a token starts with an uppercase letter of ASCII. -/
def startsUppercase : Text → Bool
  | [] => false
  | c :: _ => c.isUpper

/-- The symbol of a child in a listing: a non-terminal if it starts with an
uppercase letter of ASCII, else a terminal. -/
def ofListing (token : Text) : Symbol :=
  if startsUppercase token then nonterminal token else terminal token

/-- The symbol of a child in a rule file. -/
def ofRuleFile (token : Text) : Symbol :=
  match token with
  | [] => nonterminal []
  | c :: word =>
    if c = terminalMark then terminal word
    else if preterminalMark.isPrefixOf token then preterminal token
    else nonterminal token

/-- The preterminal that stands in for a word. -/
def preterminalFor (word : Text) : Symbol :=
  preterminal (preterminalMark ++ Text.upper word)

/-- Reading keeps what is written: a token is the written form of the
symbol read from it. -/
@[simp] theorem written_ofRuleFile (token : Text) :
    (ofRuleFile token).written = token := by
  cases token with
  | nil => rfl
  | cons c word =>
    simp only [ofRuleFile]
    split
    · rename_i h
      rw [h]
      rfl
    · split <;> rfl

end Symbol

end TreebankGrammar
