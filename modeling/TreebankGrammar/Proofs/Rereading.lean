/-
TreebankGrammar/Proofs/Rereading.lean

Which written files are read back.

Tags are written as they are, and a tag may contain the mark `->[`.  The
reader cuts the line at the first mark that it finds: what stands before it
is the tag that is read, and the rest of the tag goes to the first child.
This is a rule again, though another one, except in two cases.  A tag that
begins with the mark leaves nothing for the tag to be read; and if the rest
begins with the mark of terminals, the first child is taken for one, which
may not stand beside other children.

Design.  `Production.readingFault?` says what the reader finds wrong with the
line of a production, by its tag and the number of its symbols alone.  A file
is read line by line, so it is read as a whole just if no production has a
fault.

Main result: `readRules_output`.
-/
import TreebankGrammar.Proofs.FileLines
import TreebankGrammar.Proofs.RoundTrip
import TreebankGrammar.RuleFile.Reader

namespace TreebankGrammar

open Text (IsToken)
open Production (openMark)

/-! ### The first child -/

namespace Expansion

/-- Text without blanks before an expansion belongs to its first symbol. -/
theorem words_append_written {front : Text}
    (hf : ∀ c ∈ front, isBlank c = false) {s : Symbol} {e : Expansion}
    (h : ∀ t ∈ s :: e, t.IsWritable) :
    Text.words (front ++ written (s :: e)) =
      (front ++ s.written) :: e.map Symbol.written := by
  have first := (h s List.mem_cons_self).isToken_written
  rw [written, List.map_cons, Text.append_join_cons]
  refine Text.words_join fun t m => ?_
  rcases List.mem_cons.1 m with rfl | m
  · refine ⟨List.append_ne_nil_of_right_ne_nil _ first.ne_nil, ?_⟩
    intro c mc
    rcases List.mem_append.1 mc with mc | mc
    · exact hf c mc
    · exact first.not_blank c mc
  · obtain ⟨t, mt, rfl⟩ := List.mem_map.1 m
    exact (h t (List.mem_cons_of_mem _ mt)).isToken_written

/-- Such text before an expansion brings no mark that ends it: the first word
is too long to be a colon. -/
theorem IsWritable.not_closeMark_infix_append {e : Expansion}
    (h : e.IsWritable) {front : Text} (ne : front ≠ [])
    (hf : ∀ c ∈ front, isBlank c = false) :
    ¬ closeMark <:+: front ++ e.written := by
  intro mark
  obtain ⟨s, e, rfl⟩ := List.exists_cons_of_ne_nil h.ne_nil
  have colon := colon_mem_words mark
  rw [words_append_written hf h.symbols] at colon
  rcases List.mem_cons.1 colon with eq | m
  · have written := (h.symbols s List.mem_cons_self).isToken_written.ne_nil
    have length := congrArg List.length eq
    rw [List.length_append, List.length_singleton] at length
    have := List.length_pos_iff.2 ne
    have := List.length_pos_iff.2 written
    omega
  · obtain ⟨t, mt, eq⟩ := List.mem_map.1 m
    exact (h.symbols t (List.mem_cons_of_mem _ mt)).written_ne_colon eq

/-- Symbols are terminals again when they are read back. -/
theorem isTerminal_ofRuleFile_written {s : Symbol} (h : s.IsWritable) :
    (Symbol.ofRuleFile s.written).isTerminal = s.isTerminal := by
  rw [← Symbol.isTerminal_plain, h.isLegible.plain_ofRuleFile_written,
    Symbol.isTerminal_plain]

/-- Reading an expansion with text before its first symbol: it is read unless
the text makes a terminal of this symbol and there are others. -/
theorem IsWritable.expansion?_append_written {e : Expansion}
    (h : e.IsWritable) {front : Text} (ne : front ≠ [])
    (hf : ∀ c ∈ front, isBlank c = false) :
    WeightedRule.expansion? (front ++ e.written) =
      if front.head? = some Symbol.terminalMark ∧ 1 < e.length then
        .error .mixedChildren
      else .ok ((Text.words (front ++ e.written)).map Symbol.ofRuleFile) := by
  obtain ⟨s, rest, rfl⟩ := List.exists_cons_of_ne_nil h.ne_nil
  obtain ⟨c, front, rfl⟩ := List.exists_cons_of_ne_nil ne
  have first : (Symbol.ofRuleFile (c :: front ++ s.written)).isTerminal =
      decide (c = Symbol.terminalMark) := by
    rw [List.cons_append, Symbol.ofRuleFile]
    by_cases mark : c = Symbol.terminalMark
    · simp [mark, Symbol.isTerminal]
    · rw [if_neg mark]
      split <;> simp [mark, Symbol.isTerminal]
  -- beside other symbols there are no terminals
  have others : rest ≠ [] → ∀ t ∈ rest.map
      (fun t => Symbol.ofRuleFile t.written), t.isTerminal = false := by
    intro more t m
    obtain ⟨u, mu, rfl⟩ := List.mem_map.1 m
    rw [isTerminal_ofRuleFile_written
      (h.symbols u (List.mem_cons_of_mem _ mu))]
    rcases isHomogeneous_cons_iff.1 h.homogeneous with none | all
    · exact absurd none more
    · exact all u (List.mem_cons_of_mem _ mu)
  have homogeneous : isHomogeneous
      (Symbol.ofRuleFile (c :: front ++ s.written) ::
        rest.map fun t => Symbol.ofRuleFile t.written) = true ↔
      ¬ (c = Symbol.terminalMark ∧ rest ≠ []) := by
    rw [isHomogeneous_cons_iff, List.map_eq_nil_iff, List.forall_mem_cons,
      first, decide_eq_false_iff_not]
    by_cases more : rest = []
    · simp [more]
    · simp only [more, false_or, ne_eq, not_false_eq_true, and_true]
      exact and_iff_left (others more)
  have more : 1 < (s :: rest).length ↔ rest ≠ [] := by
    rw [List.length_cons, ← List.length_pos_iff]
    omega
  rw [WeightedRule.expansion?, words_append_written hf h.symbols]
  simp only [List.map_cons, List.map_map, Function.comp_def,
    List.isEmpty_cons, Bool.false_eq_true, if_false, List.head?_cons,
    Option.some.injEq, more, homogeneous, ite_not]

end Expansion

/-! ### The fault of a line -/

/-- What a reader finds wrong with the line written for a production. -/
def Production.readingFault? (p : Production) : Option RuleFault :=
  match Text.breakOn openMark p.lhs with
  | none => none
  | some (before, after) =>
    if before = [] then some .emptyTag
    else if after.head? = some Symbol.terminalMark ∧ 1 < p.rhs.length then
      some .mixedChildren
    else none

/-- What is wrong with a line, if it is not a rule. -/
def WeightedRule.fault? (line : Text) : Option RuleFault :=
  match parse line with
  | .error fault => some fault
  | .ok _ => none

namespace WeightedRule

variable {tag probability : Text} {e : Expansion} {p : Binary64}

/-- What follows the first mark in a tag has no blanks. -/
theorem not_isBlank_rest {before after : Text}
    (h : IsToken (before ++ openMark ++ after)) :
    ∀ c ∈ after ++ openMark, isBlank c = false := by
  intro c m
  rcases List.mem_append.1 m with m | m
  · exact h.not_blank c (List.mem_append_right _ m)
  · exact h.not_blank c (List.mem_append_left _ (List.mem_append_right _ m))

/-- How the line of a production is cut: at the mark after its tag, or at the
first one inside the tag. -/
theorem parse_ruleText (h : Production.IsWritable ⟨tag, e⟩)
    (token : IsToken probability) :
    parse (ruleText tag probability e) =
      match Text.breakOn openMark tag with
      | none => ofParts tag e.written probability
      | some (before, after) =>
        ofParts before (after ++ openMark ++ e.written) probability := by
  have line : ruleText tag probability e =
      tag ++ openMark ++ e.written ++ closeMark ++ probability ++ [] := by
    rw [List.append_nil, ruleText]
  rw [line]
  rcases cut : Text.breakOn openMark tag with - | ⟨before, after⟩
  · have apart := Text.not_infix_of_breakOn_eq_none (by decide) cut
    exact parse_of_cut h.tag token (List.forall_mem_nil _) rfl apart
      h.expansion.not_closeMark_infix
  · obtain ⟨rfl, apart⟩ := Text.breakOn_eq_some (by decide) cut
    have inside := h.expansion.not_closeMark_infix_append (by simp [openMark])
      (not_isBlank_rest h.tag)
    exact parse_of_cut h.tag token (List.forall_mem_nil _)
      (by simp only [List.append_assoc]) apart inside

/-- The reader finds what is wrong with the line of a production, and nothing
else. -/
theorem fault?_ruleText (h : Production.IsWritable ⟨tag, e⟩)
    (token : IsToken probability) (value : probability? probability = .ok p) :
    fault? (ruleText tag probability e) =
      Production.readingFault? ⟨tag, e⟩ := by
  rw [fault?, parse_ruleText h token, Production.readingFault?]
  rcases cut : Text.breakOn openMark tag with - | ⟨before, after⟩
  · -- without the mark in its tag, a production is read as it is
    simp only [ofParts, value, Expansion.expansion?_written h.expansion]
    rw [if_neg (by simpa using h.tag.ne_nil)]
  · obtain ⟨rfl, -⟩ := Text.breakOn_eq_some (by decide) cut
    have ne : after ++ openMark ≠ [] := by simp [openMark]
    have head : (after ++ openMark).head? = some Symbol.terminalMark ↔
        after.head? = some Symbol.terminalMark := by
      cases after with
      | nil => decide
      | cons c after => rfl
    have children := h.expansion.expansion?_append_written ne
      (not_isBlank_rest h.tag)
    simp only [head] at children
    simp only [ofParts]
    by_cases empty : before = []
    · simp [empty]
    · have nonempty : before.isEmpty = false := by simpa using empty
      simp only [empty, nonempty, Bool.false_eq_true, if_false, value,
        children]
      by_cases mixed : after.head? = some Symbol.terminalMark ∧ 1 < e.length
      · rw [if_pos mixed, if_pos mixed]
      · rw [if_neg mixed, if_neg mixed]

end WeightedRule

/-! ### Files -/

/-- Lines that are not blank are all read as rules, or the first one that is
none is reported with its number. -/
theorem readRuleLines_cases {texts : List Text}
    (visible : ∀ t ∈ texts, (Text.trim t).isEmpty = false) (n : Nat) :
    (∃ rules, readRuleLines n (texts.map some) = .ok rules ∧
        texts.map WeightedRule.parse = rules.map .ok) ∨
      ∃ i t fault, texts[i]? = some t ∧
        WeightedRule.parse t = .error fault ∧
        readRuleLines n (texts.map some) =
          .error (.malformedRule (n + i) t fault) := by
  induction texts generalizing n with
  | nil => exact .inl ⟨[], rfl, rfl⟩
  | cons t texts ih =>
    have here := visible t List.mem_cons_self
    have later := ih (fun u m => visible u (List.mem_cons_of_mem _ m)) (n + 1)
    rw [List.map_cons, readRuleLines, here]
    rcases parsed : WeightedRule.parse t with fault | rule
    · exact .inr ⟨0, t, fault, rfl, parsed, rfl⟩
    · rcases later with ⟨rules, read, all⟩ | ⟨i, u, fault, at_i, refused, read⟩
      · exact .inl ⟨rule :: rules, by simp [read, Except.map],
          by simp [parsed, all]⟩
      · refine .inr ⟨i + 1, u, fault, at_i, refused, ?_⟩
        simp [read, Except.map, Nat.add_assoc, Nat.add_comm 1 i]

/-- A rule is not a blank line. -/
theorem trim_ruleText_ne_nil {tag probability : Text} {e : Expansion}
    (tagToken : IsToken tag) (token : IsToken probability) :
    (Text.trim (ruleText tag probability e)).isEmpty = false := by
  have trimmed := Text.trim_append tagToken token
    (openMark ++ e.written ++ closeMark) (List.forall_mem_nil _)
  simp only [List.append_nil, ← List.append_assoc] at trimmed
  rw [ruleText, trimmed]
  simp [tagToken.ne_nil]

/-- No line of the file of an accepted listing is blank. -/
theorem trim_ruleTexts {listing : Bytes} (h : Accepts listing) :
    ∀ t ∈ (finalTable listing).ruleTexts, (Text.trim t).isEmpty = false := by
  intro t m
  obtain ⟨b, mb, e, me, rfl⟩ := RuleTable.mem_ruleTexts.1 m
  exact trim_ruleText_ne_nil (isWritable_of_mem_finalTable h mb me).tag
    (probability?_scientific (List.length_pos_of_mem me)).1

/-- In the line of an expansion the reader finds the fault of the
production. -/
theorem fault?_ruleTextOf {listing : Bytes} (h : Accepts listing) {b : Block}
    (mb : b ∈ (finalTable listing).blocks) {e : Expansion}
    (me : e ∈ b.expansions) :
    WeightedRule.fault? (b.ruleTextOf e) =
      Production.readingFault? ⟨b.tag, e⟩ := by
  obtain ⟨token, p, value⟩ :=
    probability?_scientific (List.length_pos_of_mem me)
  exact WeightedRule.fault?_ruleText (isWritable_of_mem_finalTable h mb me)
    token value

/-- **Which files are read back.**  The output of a conversion is read as
the rules that were written, as far as their number goes, just if no
production of the table has a fault for the reader.  Otherwise the reader
reports the line and the fault of such a production. -/
theorem readRules_output {listing : Bytes} {room : Option Nat} {n : Nat}
    (h : (convert listing room).result = .ok n) :
    ((∃ rules, readRules (convert listing room).output = .ok rules ∧
          rules.length = n) ↔
        ∀ b ∈ (finalTable listing).blocks, ∀ e ∈ b.expansions,
          Production.readingFault? ⟨b.tag, e⟩ = none) ∧
      ∀ error, readRules (convert listing room).output = .error error →
        ∃ b ∈ (finalTable listing).blocks, ∃ e ∈ b.expansions, ∃ i fault,
          (convert listing room).output.lines[i]? =
              some (some (b.ruleTextOf e)) ∧
            Production.readingFault? ⟨b.tag, e⟩ = some fault ∧
            error = .malformedRule (i + 1) (b.ruleTextOf e) fault := by
  obtain ⟨ok, same⟩ := convert_of_ok h
  have accepted : Accepts listing := ⟨n, ok⟩
  rw [readRules, ← same, lines_output accepted]
  rcases readRuleLines_cases (trim_ruleTexts accepted) 1 with
    ⟨rules, read, all⟩ | ⟨i, t, fault, at_i, refused, read⟩
  · -- all lines are rules, so there are no faults
    refine ⟨iff_of_true ⟨rules, read, ?_⟩ fun b mb e me => ?_,
      fun error failed => ?_⟩
    · rw [← length_ruleTexts ok]
      simpa using (congrArg List.length all).symm
    · rw [← fault?_ruleTextOf accepted mb me]
      have m := List.mem_map_of_mem (f := WeightedRule.parse)
        (RuleTable.mem_ruleTexts.2 ⟨b, mb, e, me, rfl⟩)
      rw [all] at m
      obtain ⟨rule, -, parsed⟩ := List.mem_map.1 m
      rw [WeightedRule.fault?, ← parsed]
    · rw [read] at failed
      cases failed
  · -- the line that was refused is that of a production with a fault
    obtain ⟨b, mb, e, me, rfl⟩ :=
      RuleTable.mem_ruleTexts.1 (List.mem_of_getElem? at_i)
    have found : Production.readingFault? ⟨b.tag, e⟩ = some fault := by
      rw [← fault?_ruleTextOf accepted mb me, WeightedRule.fault?, refused]
    refine ⟨iff_of_false ?_ fun none => ?_, fun error failed => ?_⟩
    · rintro ⟨rules, ok, -⟩
      rw [read] at ok
      cases ok
    · rw [none b mb e me] at found
      cases found
    · refine ⟨b, mb, e, me, i, fault, ?_, found, ?_⟩
      · rw [List.getElem?_map, at_i]
        rfl
      · rw [read, Nat.add_comm] at failed
        exact (Except.error.inj failed).symm

/-- A tag that begins with the mark is written and not read back, and so is
one whose rest makes a terminal of the first of two children. -/
theorem readRules_output_marks :
    (convert (Text.encode "->[ --> A\n".toList) none).result = .ok 1 ∧
      ¬ (∃ rules, readRules
          (convert (Text.encode "->[ --> A\n".toList) none).output =
            .ok rules ∧ rules.length = 1) ∧
      (convert (Text.encode "A->[_x --> B C\n".toList) none).result = .ok 1 ∧
      ¬ (∃ rules, readRules
          (convert (Text.encode "A->[_x --> B C\n".toList) none).output =
            .ok rules ∧ rules.length = 1) := by
  have ok : (convert (Text.encode "->[ --> A\n".toList) none).result =
      .ok 1 := by decide +kernel
  have ok' : (convert (Text.encode "A->[_x --> B C\n".toList) none).result =
      .ok 1 := by decide +kernel
  refine ⟨ok, ?_, ok', ?_⟩
  · rw [(readRules_output ok).1]
    decide +kernel
  · rw [(readRules_output ok').1]
    decide +kernel

/-- Not all that is written is read back. -/
theorem not_readRules_output :
    ¬ ∀ listing n, (convert listing none).result = .ok n →
      ∃ rules, readRules (convert listing none).output = .ok rules ∧
        rules.length = n := by
  intro all
  obtain ⟨rules, read, -⟩ :=
    all (Text.encode "->[ --> A\n".toList) 1 (by decide +kernel)
  have refused : readRules
      (convert (Text.encode "->[ --> A\n".toList) none).output =
        .error (.malformedRule 1 "->[->[A] : 1.000000e+00".toList
          .emptyTag) := by decide +kernel
  rw [refused] at read
  cases read

end TreebankGrammar
