/-
TreebankGrammar/Proofs/RoundTrip.lean

Written rules are read back.

A rule file has a line for every expansion of every tag, at its place in the
lines of its block.  The line that is written for a production of a reachable
table is read as that production just if the tag does not contain the mark
`->[`.  Words may contain both marks and blanks may not be part of any word,
and this is enough: the mark after the tag is found where it was put, and the
one after the expansion as well, since it cannot stand inside the written
expansion.  A tag with the mark in it is cut short by the reader, so that no
such tag is ever read.

Main result: `parse_ruleLines`.
-/
import Mathlib.Data.List.Forall2
import TreebankGrammar.Proofs.FileLines
import TreebankGrammar.Proofs.RuleSyntax

namespace TreebankGrammar

open Text (IsToken)
open Production (openMark)

/-! ### Symbols that are alike -/

/-- Whether two symbols have the same name and both or neither are
terminals. -/
def Symbol.Alike (s t : Symbol) : Prop :=
  s.isTerminal = t.isTerminal ∧ s.name = t.name

theorem Expansion.plain_eq_iff_forall₂ {e f : Expansion} :
    e.plain = f.plain ↔ List.Forall₂ Symbol.Alike e f := by
  induction e generalizing f with
  | nil => cases f <;> simp [plain]
  | cons s e ih =>
    cases f with
    | nil => simp [plain]
    | cons t f =>
      rw [List.forall₂_cons, ← ih, Symbol.Alike, ← Symbol.plain_eq_iff]
      exact List.cons_eq_cons

/-! ### One line -/

namespace WeightedRule

/-- Nothing that is read has a tag with the mark in it. -/
theorem not_openMark_infix_of_parse {text : Text} {rule : WeightedRule}
    (h : parse text = .ok rule) : ¬ openMark <:+: rule.production.lhs := by
  obtain ⟨tag, children, text, -, apart, -, made⟩ :=
    parse_eq_ok_iff_ofParts.1 h
  rwa [(ofParts_eq_ok_iff.1 made).2.2.1]

/-- A line is read from the parts before, between and after the first
marks. -/
theorem parse_of_cut {tag before children probability : Text}
    {e : Expansion} (tagToken : IsToken tag) (token : IsToken probability)
    {blanks : Text} (hb : ∀ c ∈ blanks, isBlank c = true)
    (cut : tag ++ openMark ++ e.written = before ++ openMark ++ children)
    (apart : ¬ openMark <:+: before) (inside : ¬ closeMark <:+: children) :
    parse (tag ++ openMark ++ e.written ++ closeMark ++ probability ++
        blanks) = ofParts before children probability := by
  have trimmed := Text.trim_append tagToken token
    (openMark ++ e.written ++ closeMark) hb
  simp only [← List.append_assoc] at trimmed
  refine parse_of_parts ?_ apart inside
  rw [trimmed, cut]

variable {tag : Text} {e : Expansion} {probability blanks : Text}
  {p : Binary64}

/-- The line of a writable production whose tag does not contain the mark is
read as that production. -/
theorem parse_writable (h : Production.IsWritable ⟨tag, e⟩)
    (apart : ¬ openMark <:+: tag) (token : IsToken probability)
    (value : probability? probability = .ok p)
    (hb : ∀ c ∈ blanks, isBlank c = true) :
    parse (tag ++ openMark ++ e.written ++ closeMark ++ probability ++
        blanks) = .ok ⟨⟨tag, e.reread⟩, p⟩ := by
  rw [parse_of_cut h.tag token hb rfl apart h.expansion.not_closeMark_infix]
  simp only [ofParts, value, Expansion.expansion?_written h.expansion]
  rw [if_neg (by simpa using h.tag.ne_nil)]

/-- The line of a writable production is read as a rule of its tag with the
same symbols just if the tag does not contain the mark. -/
theorem exists_parse_ruleLine_iff (h : Production.IsWritable ⟨tag, e⟩)
    (token : IsToken probability)
    (value : probability? probability = .ok p)
    (hb : ∀ c ∈ blanks, isBlank c = true) :
    (∃ rule, parse (tag ++ openMark ++ e.written ++ closeMark ++
          probability ++ blanks) = .ok rule ∧
        rule.production.lhs = tag ∧
        List.Forall₂ Symbol.Alike rule.production.rhs e) ↔
      ¬ openMark <:+: tag := by
  constructor
  · -- a tag with the mark is not read, whatever is read instead
    rintro ⟨rule, parsed, same, -⟩
    exact same ▸ not_openMark_infix_of_parse parsed
  · intro apart
    have same := h.expansion.isLegible.plain_reread
    exact ⟨_, parse_writable h apart token value hb, rfl,
      Expansion.plain_eq_iff_forall₂.1 same⟩

end WeightedRule

/-! ### The lines of a table -/

namespace Block

theorem length_ruleLines (b : Block) :
    b.ruleLines.length = b.expansions.length :=
  List.length_map _

/-- The line of an expansion stands at its place. -/
theorem getElem?_ruleLines {b : Block} {i : Nat} {e : Expansion}
    (h : b.expansions[i]? = some e) :
    b.ruleLines[i]? = some (ruleLine b.tag
      (uniformProbability b.expansions.length).scientific e) := by
  rw [ruleLines, List.getElem?_map, h]
  rfl

end Block

/-- What is written of a table are the lines of its blocks. -/
theorem RuleTable.writeRules_eq_encode (t : RuleTable) :
    (t.writeRules none).2 =
      Text.encode (t.blocks.flatMap Block.ruleLines).flatten :=
  (Text.encode_flatten _).symm

/-- **Writing and reading.**  After any lines, what is written of the table
are the lines of its blocks.  A block has one line for each expansion: at the
place of the expansion stands the tag, `->[`, the expansion, `] : `, the
probability and a newline.  This line, with its newline or without, is read
as a rule of the tag whose symbols have the same names and are terminals at
the same places, just if the tag does not contain `->[`. -/
theorem parse_ruleLines (interval : Nat) (texts : List Text) :
    let table := ((Converter.start interval).processAll texts).table
    (table.writeRules none).2 =
        Text.encode (table.blocks.flatMap Block.ruleLines).flatten ∧
      ∀ b ∈ table.blocks,
        b.ruleLines.length = b.expansions.length ∧
          ∀ (i : Nat) (e : Expansion), b.expansions[i]? = some e →
            let text := b.tag ++ "->[".toList ++ e.written ++
              "] : ".toList ++
              (uniformProbability b.expansions.length).scientific
            b.ruleLines[i]? = some (text ++ ['\n']) ∧
              ∀ blanks, blanks = [] ∨ blanks = ['\n'] →
                ((∃ rule, WeightedRule.parse (text ++ blanks) = .ok rule ∧
                    rule.production.lhs = b.tag ∧
                    List.Forall₂ Symbol.Alike rule.production.rhs e) ↔
                  ¬ "->[".toList <:+: b.tag) := by
  intro table
  refine ⟨table.writeRules_eq_encode, fun b mb => ⟨b.length_ruleLines, ?_⟩⟩
  intro i e stands text
  refine ⟨Block.getElem?_ruleLines stands, fun blanks newline => ?_⟩
  have me : e ∈ b.expansions := List.mem_of_getElem? stands
  have stored := me
  rw [← RuleTable.expansionsOf_of_find? (RuleTable.mem_blocks_iff.1 mb)]
    at stored
  obtain ⟨token, p, value⟩ :=
    probability?_scientific (List.length_pos_of_mem me)
  have hb : ∀ c ∈ blanks, isBlank c = true := by
    rcases newline with rfl | rfl
    · exact List.forall_mem_nil _
    · exact List.forall_mem_singleton.2 (by decide)
  exact WeightedRule.exists_parse_ruleLine_iff
    (isWritable_of_mem_expansionsOf stored) token value hb

/-- Words may hold the marks, and what these are made of.  Of the four lines
that are written for this one, that of the tag is read back, and that of the
preterminal of a mark is not. -/
theorem parse_ruleLines_marks :
    let table :=
      ((Converter.start 0).processAll ["S --> ] : ->[ B".toList]).table
    let last := "S->[P_] P_: P_->[ B] : 1.000000e+00\n".toList
    let first := "P_->[->[_->[] : 1.000000e+00\n".toList
    (table.writeRules none).2 = Text.encode (first ++
        "P_:->[_:] : 1.000000e+00\nP_]->[_]] : 1.000000e+00\n".toList ++
        last) ∧
      (∃ rule, WeightedRule.parse last = .ok rule ∧
        rule.production.lhs = "S".toList ∧
        List.Forall₂ Symbol.Alike rule.production.rhs
          [.preterminal "P_]".toList, .preterminal "P_:".toList,
            .preterminal "P_->[".toList, .nonterminal "B".toList]) ∧
      ¬ ∃ rule, WeightedRule.parse first = .ok rule ∧
        rule.production.lhs = "P_->[".toList ∧
        List.Forall₂ Symbol.Alike rule.production.rhs
          [.terminal "->[".toList] := by
  intro table last first
  obtain ⟨file, lines⟩ := parse_ruleLines 0 ["S --> ] : ->[ B".toList]
  refine ⟨file.trans (by decide +kernel), ?_, ?_⟩
  · let b : Block := ⟨"S".toList, [[.preterminal "P_]".toList,
      .preterminal "P_:".toList, .preterminal "P_->[".toList,
      .nonterminal "B".toList]], false⟩
    obtain ⟨stands, read⟩ := (lines b (by decide +kernel)).2 0 _ rfl
    have written : b.ruleLines[0]? = some last := by decide +kernel
    have line := read ['\n'] (.inr rfl)
    rw [Option.some.inj (stands.symm.trans written)] at line
    exact line.2 (by decide)
  · let b : Block := ⟨"P_->[".toList, [[.terminal "->[".toList]], true⟩
    obtain ⟨stands, read⟩ := (lines b (by decide +kernel)).2 0 _ rfl
    have written : b.ruleLines[0]? = some first := by decide +kernel
    have line := read ['\n'] (.inr rfl)
    rw [Option.some.inj (stands.symm.trans written)] at line
    exact mt line.1 (by decide)

end TreebankGrammar
