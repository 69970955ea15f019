/-
TreebankGrammar/Production.lean

Productions of a grammar.

A production expands a tag to a list of symbols.  A grammar in normal form
has two sorts of expansions: non-terminals only, or a single terminal.  Such
an expansion is homogeneous.

Design.  Like symbols, expansions and productions are compared in their
plain form (`Expansion.plain`, `Production.plain`).
-/
import TreebankGrammar.Symbol

namespace TreebankGrammar

/-- What a tag expands to. -/
abbrev Expansion := List Symbol

namespace Expansion

/-- An expansion of symbols in their plain form. -/
def plain (e : Expansion) : Expansion := e.map Symbol.plain

/-- An expansion to a word is equal to no other. -/
theorem plain_eq_terminal_iff {e : Expansion} {word : Text} :
    e.plain = [.terminal word] ↔ e = [.terminal word] := by
  simp [plain, List.map_eq_singleton_iff, Symbol.plain_eq_terminal_iff]

/-- Whether an expansion has no terminal. -/
def isNonlexical (e : Expansion) : Bool := e.all Symbol.isNonterminal

/-- Whether an expansion has a terminal. -/
def isLexical (e : Expansion) : Bool := !e.isNonlexical

/-- Whether an expansion has no terminal or is a single terminal. -/
def isHomogeneous (e : Expansion) : Bool :=
  e.isNonlexical ||
    match e with
    | [s] => s.isTerminal
    | _ => false

theorem isHomogeneous_plain (e : Expansion) :
    e.plain.isHomogeneous = e.isHomogeneous := by
  have nonlexical : e.plain.isNonlexical = e.isNonlexical := by
    rw [isNonlexical, isNonlexical, plain, List.all_map]
    congr 1
    funext s
    simp [Symbol.isNonterminal, Symbol.isTerminal_plain]
  unfold isHomogeneous
  rw [nonlexical]
  rcases e with - | ⟨s, - | ⟨t, e⟩⟩
  · rfl
  · show (_ || s.plain.isTerminal) = (_ || s.isTerminal)
    rw [Symbol.isTerminal_plain]
  · rfl

/-- An expansion as it stands in a rule file: the written symbols with a
space between neighbours. -/
def written (e : Expansion) : Text := Text.join [' '] (e.map Symbol.written)

theorem written_plain (e : Expansion) : e.plain.written = e.written := by
  simp [written, plain, Function.comp_def]

end Expansion

/-- A production: a tag and what it expands to. -/
structure Production where
  lhs : Text
  rhs : Expansion
  deriving DecidableEq

namespace Production

/-- The mark between the tag and the expansion of a written production. -/
def openMark : Text := ['-', '>', '[']

/-- A production with its expansion in plain form. -/
def plain (p : Production) : Production := { p with rhs := p.rhs.plain }

/-- A production as it stands in a rule file, without its probability. -/
def written (p : Production) : Text :=
  p.lhs ++ openMark ++ p.rhs.written ++ [']']

/-- The production of the preterminal that stands in for a word. -/
def preterminalFor (word : Text) : Production :=
  ⟨(Symbol.preterminalFor word).name, [.terminal word]⟩

end Production

end TreebankGrammar
