/-
TreebankGrammar/Proofs/Acceptance.lean

Which listings are converted, in terms of their lines.

A word that stands beside other children is replaced by its preterminal, so
the listing gives this preterminal the expansion to the word; a line that
has the preterminal for its tag gives it an expansion too.  A listing is
converted just if all its lines can be read and no preterminal is given two
different expansions.  Nothing in this condition depends on the order of the
lines, although the table looks for conflicts while it grows.

Main result: `convert_ok_iff`.
-/
import TreebankGrammar.Proofs.Conversion

namespace TreebankGrammar

/-! ### What a listing gives to its tags -/

/-- A word that some line has among its children, with siblings. -/
def IsReplaced (lines : List Line) (word : Text) : Prop :=
  ∃ line ∈ lines, 1 < line.children.length ∧ word ∈ line.children ∧
    Symbol.startsUppercase word = false

/-- The expansions that lines give to tags. -/
inductive Gives (lines : List Line) : Text → Expansion → Prop
  /-- A replaced word is what its preterminal expands to. -/
  | word {word} : IsReplaced lines word →
      Gives lines (Symbol.preterminalFor word).name [.terminal word]
  /-- A line gives its normal form to its tag. -/
  | line {line} : line ∈ lines →
      Gives lines line.tag line.normalized.rule.rhs

/-- The preterminals of a line are those of its words with siblings. -/
theorem mem_preterminals {line : Line} {p : Production} :
    p ∈ line.normalized.preterminals ↔
      ∃ word, 1 < line.children.length ∧ word ∈ line.children ∧
        Symbol.startsUppercase word = false ∧
        Production.preterminalFor word = p := by
  by_cases siblings : 1 < line.children.length <;>
    simp [Line.normalized, Normalized.ofChildren, Normalized.replacedWords,
      siblings, and_assoc]

theorem register_mem_requestsOf {lines : List Line} {p : Production} :
    Request.register p ∈ requestsOf lines ↔
      ∃ word, IsReplaced lines word ∧ Production.preterminalFor word = p := by
  simp only [requestsOf, Line.requests, List.mem_flatMap, List.mem_append,
    List.mem_map, Request.register.injEq, exists_eq_right, List.mem_singleton,
    reduceCtorEq, or_false, mem_preterminals, IsReplaced]
  constructor
  · rintro ⟨line, m, word, siblings, child, lower, e⟩
    exact ⟨word, ⟨line, m, siblings, child, lower⟩, e⟩
  · rintro ⟨word, ⟨line, m, siblings, child, lower⟩, e⟩
    exact ⟨line, m, word, siblings, child, lower, e⟩

theorem insert_mem_requestsOf {lines : List Line} {p : Production} :
    Request.insert p ∈ requestsOf lines ↔
      ∃ line ∈ lines, line.normalized.rule = p := by
  simp [requestsOf, Line.requests, eq_comm]

/-- Lines give a tag just the expansions that they request for it. -/
theorem gives_iff {lines : List Line} {tag : Text} {e : Expansion} :
    Gives lines tag e ↔
      ∃ r ∈ requestsOf lines, r.rule.lhs = tag ∧ r.rule.rhs = e := by
  constructor
  · rintro (h | h)
    · exact ⟨_, register_mem_requestsOf.2 ⟨_, h, rfl⟩, rfl, rfl⟩
    · exact ⟨_, insert_mem_requestsOf.2 ⟨_, h, rfl⟩, rfl, rfl⟩
  · rintro ⟨p | p, m, rfl, rfl⟩
    · obtain ⟨line, h, rfl⟩ := insert_mem_requestsOf.1 m
      exact .line h
    · obtain ⟨word, h, rfl⟩ := register_mem_requestsOf.1 m
      exact .word h

/-- Requests of lines agree just if no preterminal of a replaced word is
given two expansions. -/
theorem agree_requestsOf {lines : List Line} :
    Agree (requestsOf lines) ↔
      ∀ word, IsReplaced lines word → ∀ e f,
        Gives lines (Symbol.preterminalFor word).name e →
        Gives lines (Symbol.preterminalFor word).name f →
        e.plain = f.plain := by
  constructor
  · intro agree word replaced e f he hf
    have m := register_mem_requestsOf.2 ⟨word, replaced, rfl⟩
    -- both are equal to the expansion that the word brings
    have eq_word : ∀ g, Gives lines (Symbol.preterminalFor word).name g →
        g.plain = Expansion.plain [.terminal word] := by
      intro g hg
      obtain ⟨q, m', tag, rfl⟩ := gives_iff.1 hg
      exact agree _ m rfl q m' tag
    exact (eq_word e he).trans (eq_word f hf).symm
  · intro same r m reg q m' tag
    cases r with
    | insert p => cases reg
    | register p =>
      obtain ⟨word, replaced, rfl⟩ := register_mem_requestsOf.1 m
      exact same word replaced _ _ (gives_iff.2 ⟨q, m', tag, rfl⟩)
        (gives_iff.2 ⟨_, m, rfl, rfl⟩)

/-! ### The condition -/

/-- **When a listing is converted.**  A conversion whose receiver has room
for everything succeeds just if every line is valid text and can be read,
and all expansions that the listing gives to the preterminal of a replaced
word are equal.  So a line whose tag is such a preterminal, and whose
expansion is not its word, is in conflict with the word wherever the two
stand. -/
theorem convert_ok_iff (listing : Bytes) :
    ((∃ n, (convert listing none).result = .ok n) ↔
      (∀ text ∈ listing.lines,
        ∃ t line, text = some t ∧ Line.parse t = .ok line) ∧
      ∀ word, IsReplaced listing.parsedLines word → ∀ e f,
        Gives listing.parsedLines (Symbol.preterminalFor word).name e →
        Gives listing.parsedLines (Symbol.preterminalFor word).name f →
        e.plain = f.plain) ∧
    ∀ word, IsReplaced listing.parsedLines word →
      ∀ line ∈ listing.parsedLines,
        line.tag = (Symbol.preterminalFor word).name →
        line.normalized.rule.rhs ≠ [.terminal word] →
        ∀ n, (convert listing none).result ≠ .ok n := by
  have condition := accepts_iff_agree listing
  rw [agree_requestsOf] at condition
  refine ⟨condition, ?_⟩
  -- the line and the word both give something to the preterminal
  intro word replaced line m tag ne n ok
  have same := (condition.1 ⟨n, ok⟩).2 word replaced
    line.normalized.rule.rhs [.terminal word] (tag ▸ .line m) (.word replaced)
  exact ne (Expansion.plain_eq_terminal_iff.1 same)

/-- A line for the preterminal of a word and the word itself are in conflict
whichever comes first, also within one line. -/
theorem convert_conflict_either_order :
    (∀ n, (convert (Text.encode "P_DOG --> NN\nX --> dog NN\n".toList)
        none).result ≠ .ok n) ∧
      (∀ n, (convert (Text.encode "X --> dog NN\nP_DOG --> NN\n".toList)
        none).result ≠ .ok n) ∧
      ∀ n, (convert (Text.encode "P_DOG --> dog NN\n".toList)
        none).result ≠ .ok n := by
  have dog : (Symbol.preterminalFor "dog".toList).name = "P_DOG".toList := by
    decide +kernel
  refine ⟨?_, ?_, ?_⟩
  · exact (convert_ok_iff _).2 "dog".toList
      ⟨⟨.plain, "X".toList, ["dog".toList, "NN".toList]⟩, by decide +kernel⟩
      ⟨.plain, "P_DOG".toList, ["NN".toList]⟩ (by decide +kernel) dog.symm
      (by decide)
  · exact (convert_ok_iff _).2 "dog".toList
      ⟨⟨.plain, "X".toList, ["dog".toList, "NN".toList]⟩, by decide +kernel⟩
      ⟨.plain, "P_DOG".toList, ["NN".toList]⟩ (by decide +kernel) dog.symm
      (by decide)
  · exact (convert_ok_iff _).2 "dog".toList
      ⟨⟨.plain, "P_DOG".toList, ["dog".toList, "NN".toList]⟩,
        by decide +kernel⟩
      ⟨.plain, "P_DOG".toList, ["dog".toList, "NN".toList]⟩
      (by decide +kernel) dog.symm (by decide)

end TreebankGrammar
