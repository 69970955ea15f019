/-
TreebankGrammar/Proofs/Language.lean

Conversion keeps the language of a grammar.

A listing is a context-free grammar as it stands: every line expands its tag
to its children, those that start with an uppercase letter being
nonterminals and all others words.  So is the table made of it, where a
symbol that is no terminal goes by its name.  From every tag of the listing
both derive the same words.

Design.  Both inclusions are simulations along a map of letters
(`Derives.map`): every rule of one grammar is a derivation of the other,
once the map is applied.  Towards the table the map is the identity, since
the table follows a line by the preterminals of its words.  Back to the
listing it replaces each preterminal by its word (`unfolded`).  The latter
needs that a preterminal has just one word, and that the listing itself can
make the step from the name of a preterminal to the word wherever it uses
this name as a nonterminal of its own.

Main result: `language_finalTable`.
-/
import Mathlib.Computability.ContextFreeGrammar
import TreebankGrammar.Proofs.Acceptance

namespace ContextFreeGrammar

variable {T : Type*} {g : ContextFreeGrammar T}

/-! ### Derivations -/

/-- The letters of sentential forms, under a name that no other kind of
symbol has. -/
abbrev Letter (T N : Type*) : Type _ := Symbol T N

/-- A rule derives its right hand side. -/
theorem derives_rule {r : ContextFreeRule T g.NT} (h : r ∈ g.rules) :
    g.Derives [.nonterminal r.input] r.output :=
  Produces.single ⟨r, h, ContextFreeRule.Rewrites.input_output⟩

/-- Letters may be derived one by one. -/
theorem derives_map_map {α : Type*} {xs : List α}
    {a b : α → Letter T g.NT} (h : ∀ x ∈ xs, g.Derives [a x] [b x]) :
    g.Derives (xs.map a) (xs.map b) := by
  induction xs with
  | nil => exact Derives.refl _
  | cons x xs ih =>
    -- the first letter beside the others as they are, then the others
    have head := (h x List.mem_cons_self).append_right (xs.map a)
    have tail := (ih fun y m => h y (List.mem_cons_of_mem _ m)).append_left
      [b x]
    exact head.trans tail

/-- **Simulation.**  If every rule of one grammar is a derivation of another
along a map of letters, then so is every derivation. -/
theorem Derives.map (g' : ContextFreeGrammar T)
    (φ : Letter T g.NT → Letter T g'.NT)
    (sim : ∀ r ∈ g.rules,
      g'.Derives [φ (.nonterminal r.input)] (r.output.map φ))
    {u v : List (Letter T g.NT)} (h : g.Derives u v) :
    g'.Derives (u.map φ) (v.map φ) := by
  induction h with
  | refl => exact Derives.refl _
  | tail _ step ih =>
    obtain ⟨r, m, rewrites⟩ := step
    obtain ⟨p, q, rfl, rfl⟩ := rewrites.exists_parts
    refine ih.trans ?_
    simp only [List.map_append, List.map_cons, List.map_nil]
    -- the letters around the rewritten one stay as they are
    exact ((sim r m).append_left (p.map φ)).append_right (q.map φ)

end ContextFreeGrammar

namespace TreebankGrammar

open ContextFreeGrammar (Letter derives_rule derives_map_map)

/-! ### The two grammars -/

/-- A child of a line as a letter: a nonterminal if it starts with an
uppercase letter of ASCII, else a word. -/
def childLetter (child : Text) : Letter Text Text :=
  if Symbol.startsUppercase child then .nonterminal child
  else .terminal child

/-- The rule that a line is. -/
def Line.rule (line : Line) : ContextFreeRule Text Text :=
  ⟨line.tag, line.children.map childLetter⟩

/-- The grammar of lines, from a start. -/
abbrev lineGrammar (lines : List Line) (start : Text) :
    ContextFreeGrammar Text :=
  ⟨Text, start, (lines.map Line.rule).toFinset⟩

/-- A symbol as a letter; preterminals and other nonterminals are found by
their names. -/
def Symbol.letter : Symbol → Letter Text Text
  | nonterminal name => .nonterminal name
  | preterminal name => .nonterminal name
  | terminal word => .terminal word

/-- The rules of a block. -/
def Block.rules (b : Block) : List (ContextFreeRule Text Text) :=
  b.expansions.map fun e => ⟨b.tag, e.map Symbol.letter⟩

/-- The grammar of a table, from a start. -/
abbrev RuleTable.grammar (t : RuleTable) (start : Text) :
    ContextFreeGrammar Text :=
  ⟨Text, start, (t.blocks.flatMap Block.rules).toFinset⟩

theorem mem_rules_lineGrammar {lines : List Line} {start : Text}
    {r : ContextFreeRule Text Text} :
    r ∈ (lineGrammar lines start).rules ↔ ∃ line ∈ lines, line.rule = r := by
  simp [lineGrammar]

theorem Symbol.letter_plain (s : Symbol) : s.plain.letter = s.letter := by
  cases s <;> rfl

theorem Expansion.map_letter_plain (e : Expansion) :
    e.plain.map Symbol.letter = e.map Symbol.letter := by
  simp [Expansion.plain, Symbol.letter_plain]

/-- The rules of a table that records the requests of lines are what the
lines give to their tags. -/
theorem mem_rules_grammar {t : RuleTable} {lines : List Line}
    (h : t.Records (requestsOf lines)) {start : Text}
    {r : ContextFreeRule Text Text} :
    r ∈ (t.grammar start).rules ↔
      ∃ tag e, Gives lines tag e ∧ r = ⟨tag, e.map Symbol.letter⟩ := by
  simp only [RuleTable.grammar, List.mem_toFinset, List.mem_flatMap,
    Block.rules, List.mem_map]
  constructor
  · -- what is stored was requested, and the two have the same letters
    rintro ⟨b, mb, e, me, rfl⟩
    rw [← RuleTable.expansionsOf_of_find? (RuleTable.mem_blocks_iff.1 mb)]
      at me
    obtain ⟨q, mq, tag, same⟩ := h.mem_expansionsOf me
    refine ⟨b.tag, q.rule.rhs, gives_iff.2 ⟨q, mq, tag, rfl⟩, ?_⟩
    rw [← Expansion.map_letter_plain q.rule.rhs, same,
      Expansion.map_letter_plain]
  · -- what was requested is stored, though maybe as an equal expansion
    rintro ⟨tag, e, g, rfl⟩
    obtain ⟨q, mq, rfl, rfl⟩ := gives_iff.1 g
    obtain ⟨f, mf, same⟩ := h.exists_expansion mq
    rcases hb : t.find? q.rule.lhs with - | b
    · simp [RuleTable.expansionsOf_of_find?_none hb] at mf
    · rw [RuleTable.expansionsOf_of_find? hb] at mf
      refine ⟨b, List.mem_of_find?_eq_some hb, f, mf, ?_⟩
      rw [RuleTable.tag_of_find? hb, ← Expansion.map_letter_plain f, same,
        Expansion.map_letter_plain]

/-! ### Children -/

variable {lines : List Line} {line : Line} {child word name : Text}

/-- Normalizing replaces the letter of a word with siblings, and no other
one. -/
theorem letter_childSymbol (siblings : Bool) (child : Text) :
    (Normalized.childSymbol siblings child).letter =
      if Symbol.startsUppercase child = false ∧ siblings = true then
        .nonterminal (Symbol.preterminalFor child).name
      else childLetter child := by
  rcases upper : Symbol.startsUppercase child with - | -
  · cases siblings <;>
      simp [Normalized.childSymbol, Symbol.ofListing, childLetter, upper,
        Symbol.letter, Symbol.preterminalFor, Symbol.name]
  · simp [Normalized.childSymbol, Symbol.ofListing, childLetter, upper,
      Symbol.letter]

theorem isReplaced_of_siblings (m : line ∈ lines)
    (mc : child ∈ line.children)
    (h : Symbol.startsUppercase child = false ∧
      decide (1 < line.children.length) = true) :
    IsReplaced lines child :=
  ⟨line, m, of_decide_eq_true h.2, mc, h.1⟩

/-- The letters of a line in normal form. -/
theorem map_letter_normalized (line : Line) :
    line.normalized.rule.rhs.map Symbol.letter =
      line.children.map fun child =>
        (Normalized.childSymbol (decide (1 < line.children.length))
          child).letter := by
  show (line.children.map _).map _ = _
  rw [List.map_map]
  rfl

/-- A line whose normal form is a word has this word for its only child. -/
theorem children_of_normalized
    (h : line.normalized.rule.rhs = [.terminal word]) :
    line.children.map childLetter = [.terminal word] := by
  have one : line.children.length = 1 := by
    simpa [Line.normalized, Normalized.ofChildren] using
      congrArg List.length h
  have letters := map_letter_normalized line
  rw [h, one] at letters
  simp only [letter_childSymbol, Nat.lt_irrefl, decide_false,
    Bool.false_eq_true, and_false, if_false] at letters
  exact letters.symm

/-! ### From lines to the table -/

/-- The table follows every line: it expands the tag to the normal form,
then each preterminal in it to its word. -/
theorem derives_rule_of_mem {t : RuleTable}
    (h : t.Records (requestsOf lines)) (start : Text) (m : line ∈ lines) :
    (t.grammar start).Derives [.nonterminal line.tag]
      (line.children.map childLetter) := by
  have normal : (t.grammar start).Derives [.nonterminal line.tag]
      (line.normalized.rule.rhs.map Symbol.letter) :=
    derives_rule ((mem_rules_grammar h).2 ⟨_, _, .line m, rfl⟩)
  refine normal.trans ?_
  rw [map_letter_normalized]
  apply derives_map_map
  intro child mc
  rw [letter_childSymbol]
  split
  · -- the letter is a preterminal, which has a rule to its word
    rename_i replaced
    have rule := Gives.word (isReplaced_of_siblings m mc replaced)
    have lower : childLetter child = .terminal child := by
      simp [childLetter, replaced.1]
    rw [lower]
    exact derives_rule ((mem_rules_grammar h).2 ⟨_, _, rule, rfl⟩)
  · exact .refl _

/-- Whatever lines derive, so does the table that records their requests. -/
theorem derives_table_of_derives {t : RuleTable}
    (h : t.Records (requestsOf lines)) {start : Text}
    {u v : List (Letter Text Text)}
    (d : (lineGrammar lines start).Derives u v) :
    (t.grammar start).Derives u v := by
  have sim : ∀ r ∈ (lineGrammar lines start).rules,
      (t.grammar start).Derives [.nonterminal r.input] (r.output.map id) := by
    intro r m
    obtain ⟨line, m', rfl⟩ := mem_rules_lineGrammar.1 m
    rw [List.map_id]
    exact derives_rule_of_mem h start m'
  have mapped := ContextFreeGrammar.Derives.map (g := lineGrammar lines start)
    (t.grammar start) id sim d
  rwa [List.map_id, List.map_id] at mapped

/-! ### From the table to lines -/

/-- The words of a line that are replaced. -/
def Line.replaced (line : Line) : List Text :=
  Normalized.replacedWords (decide (1 < line.children.length)) line.children

theorem isReplaced_iff :
    IsReplaced lines word ↔ word ∈ lines.flatMap Line.replaced := by
  rw [List.mem_flatMap, IsReplaced]
  refine exists_congr fun line => and_congr_right fun _ => ?_
  by_cases siblings : 1 < line.children.length <;>
    simp [Line.replaced, Normalized.replacedWords, siblings]

/-- The first replaced word of lines with the given preterminal. -/
def wordOf? (lines : List Line) (name : Text) : Option Text :=
  (lines.flatMap Line.replaced).find? fun word =>
    (Symbol.preterminalFor word).name = name

theorem wordOf?_eq_none :
    wordOf? lines name = none ↔
      ∀ word, IsReplaced lines word →
        (Symbol.preterminalFor word).name ≠ name := by
  simp only [wordOf?, List.find?_eq_none, isReplaced_iff, decide_eq_true_eq,
    ne_eq]

theorem of_wordOf?_eq_some (h : wordOf? lines name = some word) :
    IsReplaced lines word ∧ (Symbol.preterminalFor word).name = name :=
  ⟨isReplaced_iff.2 (List.mem_of_find?_eq_some h),
    by simpa using List.find?_some h⟩

/-- A letter with the preterminals of lines replaced by their words. -/
def unfolded (lines : List Line) : Letter Text Text → Letter Text Text
  | .terminal word => .terminal word
  | .nonterminal name =>
    match wordOf? lines name with
    | some word => .terminal word
    | none => .nonterminal name

/-- Where requests agree, all that the preterminal of a word is given is the
word. -/
theorem eq_word_of_gives (agree : Agree (requestsOf lines))
    (h : wordOf? lines name = some word) {e : Expansion}
    (g : Gives lines name e) : e = [.terminal word] := by
  obtain ⟨replaced, rfl⟩ := of_wordOf?_eq_some h
  have same := agree_requestsOf.1 agree word replaced e _ g (.word replaced)
  exact Expansion.plain_eq_terminal_iff.1 same

theorem unfolded_preterminalFor (agree : Agree (requestsOf lines))
    (replaced : IsReplaced lines word) :
    unfolded lines (.nonterminal (Symbol.preterminalFor word).name) =
      .terminal word := by
  rcases found : wordOf? lines (Symbol.preterminalFor word).name with - | w
  · exact absurd rfl (wordOf?_eq_none.1 found word replaced)
  · have same := eq_word_of_gives agree found (.word replaced)
    simp only [List.cons.injEq, Symbol.terminal.injEq, and_true] at same
    rw [unfolded, found, same]

/-- Lines make the step from a preterminal to its word, if they have it for
a tag. -/
theorem derives_unfolded (agree : Agree (requestsOf lines)) (start : Text)
    (tagged : ∀ word, IsReplaced lines word →
      name = (Symbol.preterminalFor word).name →
      ∃ line ∈ lines, line.tag = name) :
    (lineGrammar lines start).Derives [.nonterminal name]
      [unfolded lines (.nonterminal name)] := by
  rcases found : wordOf? lines name with - | word
  · simp only [unfolded, found]
    exact .refl _
  · obtain ⟨replaced, eq⟩ := of_wordOf?_eq_some found
    obtain ⟨line, m, rfl⟩ := tagged word replaced eq.symm
    have rule : (lineGrammar lines start).Derives [.nonterminal line.tag]
        (line.children.map childLetter) :=
      derives_rule (mem_rules_lineGrammar.2 ⟨line, m, rfl⟩)
    have normal := eq_word_of_gives agree found (.line m)
    rw [children_of_normalized normal] at rule
    simpa only [unfolded, found] using rule

/-- Lines make the step from a child to the letter that normalizing makes of
it, with preterminals replaced by words. -/
theorem derives_unfolded_child (agree : Agree (requestsOf lines))
    (start : Text) (m : line ∈ lines) (mc : child ∈ line.children)
    (tagged : Symbol.startsUppercase child = true →
      ∀ word, IsReplaced lines word →
        child = (Symbol.preterminalFor word).name →
          ∃ other ∈ lines, other.tag = child) :
    (lineGrammar lines start).Derives [childLetter child]
      [unfolded lines (Normalized.childSymbol
        (decide (1 < line.children.length)) child).letter] := by
  rw [letter_childSymbol]
  rcases upper : Symbol.startsUppercase child with - | -
  · -- a word, whether or not it stands alone
    have lower : childLetter child = .terminal child := by
      simp [childLetter, upper]
    rw [lower]
    split
    · rename_i replaced
      rw [unfolded_preterminalFor agree
        (isReplaced_of_siblings m mc ⟨upper, replaced.2⟩)]
    · exact .refl _
  · -- a nonterminal, which may have the name of a preterminal
    have higher : childLetter child = .nonterminal child := by
      simp [childLetter, upper]
    rw [if_neg (by simp), higher]
    exact derives_unfolded agree start (tagged upper)

/-- Lines follow every line of the table, up to the replacement of
preterminals by words. -/
theorem derives_unfolded_of_gives (agree : Agree (requestsOf lines))
    (start : Text)
    (tagged : ∀ line ∈ lines, ∀ child ∈ line.children,
      Symbol.startsUppercase child = true → ∀ word, IsReplaced lines word →
        child = (Symbol.preterminalFor word).name →
          ∃ other ∈ lines, other.tag = child)
    {tag : Text} {e : Expansion} (g : Gives lines tag e) :
    (lineGrammar lines start).Derives [unfolded lines (.nonterminal tag)]
      ((e.map Symbol.letter).map (unfolded lines)) := by
  rcases found : wordOf? lines tag with - | word
  · cases g with
    | word replaced => exact absurd rfl (wordOf?_eq_none.1 found _ replaced)
    | @line line m =>
      have rule : (lineGrammar lines start).Derives [.nonterminal line.tag]
          (line.children.map childLetter) :=
        derives_rule (mem_rules_lineGrammar.2 ⟨line, m, rfl⟩)
      simp only [unfolded, found]
      refine rule.trans ?_
      rw [map_letter_normalized, List.map_map]
      apply derives_map_map
      intro child mc
      exact derives_unfolded_child agree start m mc (tagged line m child mc)
  · -- all that a preterminal is given is its word, which stays
    rw [eq_word_of_gives agree found g]
    simp only [unfolded, found]
    exact .refl _

/-! ### The language -/

/-- **Conversion keeps the language.**  From every tag of an accepted
listing, the lines and the table derive the same words.  A nonterminal of
the listing that has the name of a preterminal must be a tag of it, since
the table expands it to its word anyhow. -/
theorem language_finalTable {listing : Bytes} (accepted : Accepts listing)
    (tagged : ∀ line ∈ listing.parsedLines, ∀ child ∈ line.children,
      Symbol.startsUppercase child = true →
        ∀ word, IsReplaced listing.parsedLines word →
          child = (Symbol.preterminalFor word).name →
            ∃ other ∈ listing.parsedLines, other.tag = child) :
    ∀ line ∈ listing.parsedLines, ∀ words : List Text,
      words ∈ (lineGrammar listing.parsedLines line.tag).language ↔
        words ∈ ((finalTable listing).grammar line.tag).language := by
  have records := records_finalTable accepted
  have agree := ((accepts_iff_agree listing).1 accepted).2
  intro line m words
  rw [ContextFreeGrammar.mem_language_iff,
    ContextFreeGrammar.mem_language_iff]
  constructor
  · exact derives_table_of_derives records
  · intro d
    have mapped := d.map (lineGrammar listing.parsedLines line.tag)
      (unfolded listing.parsedLines) ?_
    · -- the tag may itself be a preterminal, and is replaced as well
      rw [List.map_map] at mapped
      exact (derives_unfolded agree line.tag
        fun _ _ _ => ⟨line, m, rfl⟩).trans mapped
    · intro r mr
      obtain ⟨tag, e, g, rfl⟩ := (mem_rules_grammar records).1 mr
      exact derives_unfolded_of_gives agree line.tag tagged g

/-- A listing that has the preterminal of a word for a nonterminal and a
tag. -/
def taggedListing : Bytes :=
  Text.encode "S --> P_DOG dog B\nP_DOG --> dog\nB --> b\n".toList

theorem language_taggedListing :
    IsReplaced taggedListing.parsedLines "dog".toList ∧
      (Symbol.preterminalFor "dog".toList).name = "P_DOG".toList ∧
      ∀ words : List Text,
        words ∈ (lineGrammar taggedListing.parsedLines "S".toList).language ↔
          words ∈
            ((finalTable taggedListing).grammar "S".toList).language := by
  have replaced : "dog".toList ∈
      taggedListing.parsedLines.flatMap Line.replaced := by
    decide +kernel
  have accepted : Accepts taggedListing := by
    rw [accepts_iff_read]
    decide +kernel
  have tagged : ∀ line ∈ taggedListing.parsedLines, ∀ child ∈ line.children,
      Symbol.startsUppercase child = true →
        ∃ other ∈ taggedListing.parsedLines, other.tag = child := by
    decide +kernel
  refine ⟨isReplaced_iff.2 replaced, by decide +kernel, ?_⟩
  exact language_finalTable accepted
    (fun line m child mc upper _ _ _ => tagged line m child mc upper)
    ⟨.plain, "S".toList, ["P_DOG".toList, "dog".toList, "B".toList]⟩
    (by decide +kernel)

end TreebankGrammar
