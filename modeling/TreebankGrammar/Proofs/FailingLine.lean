/-
TreebankGrammar/Proofs/FailingLine.lean

What a failing line leaves behind.

A line that cannot be read changes nothing.  A line that makes a conflict has
registered the preterminals before it by then, in the order of their words,
and nothing else: the conflict is at the next preterminal, or at the line's
own production (`RuleTable.FailsAfter`).

Design.  Registering is described by the block that each tag has afterwards
(`find?_insertPreterminal` for one preterminal, `Registers.find?_eq` for a
run of them).  A block that was there keeps its expansions and may become
registered; a block that is new has the word of a preterminal.  Nothing is
assumed of the table, so the description holds of every converter.

Main result: `processLine_failing`.
-/
import TreebankGrammar.Proofs.Reachable

namespace TreebankGrammar

namespace RuleTable

variable {t t' : RuleTable} {p : Production} {ps : List Production}

/-! ### Registering preterminals -/

/-- Registering the preterminals of productions one after the other, each
with success. -/
inductive Registers : RuleTable → List Production → RuleTable → Prop
  | nil {t : RuleTable} : Registers t [] t
  | cons {t t' t'' : RuleTable} {p : Production} {ps : List Production}
      {isNew : Bool} :
      t.insertPreterminal p = .ok (t', isNew) → Registers t' ps t'' →
      Registers t (p :: ps) t''

/-- Adding a line in normal form fails with a conflict, after these
preterminals were registered: at the preterminal that comes next, or at the
line's own production after all of them. -/
inductive FailsAfter (t : RuleTable) (line : Normalized) :
    List Production → Conflict → RuleTable → Prop
  | preterminal {ps qs : List Production} {p : Production}
      {conflict : Conflict} {t' : RuleTable} :
      line.preterminals = ps ++ p :: qs → t.Registers ps t' →
      t'.insertPreterminal p = .error conflict →
      FailsAfter t line ps conflict t'
  | rule {conflict : Conflict} {t' : RuleTable} :
      t.Registers line.preterminals t' →
      t'.insert line.rule = .error conflict →
      FailsAfter t line line.preterminals conflict t'

/-- What the block of a tag becomes when preterminals are registered: it is
registered if its tag is among them, and without one the first of them for
the tag makes it. -/
def blockAfter (ps : List Production) (tag : Text) :
    Option Block → Option Block
  | some b =>
    some { b with registered := b.registered || ps.any (·.lhs == tag) }
  | none =>
    (ps.find? (·.lhs == tag)).map fun p => ⟨tag, [p.rhs], true⟩

theorem blockAfter_of_ne {tag : Text} (ne : ∀ p ∈ ps, p.lhs ≠ tag)
    (b : Option Block) : blockAfter ps tag b = b := by
  have any : ps.any (·.lhs == tag) = false := by simpa using ne
  have find? : ps.find? (·.lhs == tag) = none := by simpa using ne
  rcases b with - | b
  · simp [blockAfter, find?]
  · simp [blockAfter, any]

theorem blockAfter_cons (p : Production) (ps : List Production) (tag : Text)
    (b : Option Block) :
    blockAfter (p :: ps) tag b = blockAfter ps tag (blockAfter [p] tag b) := by
  rcases b with - | b
  · by_cases here : p.lhs = tag <;> simp [blockAfter, here]
  · simp [blockAfter, Bool.or_assoc]

/-- **One preterminal.**  Registering it does to the block of every tag what
`blockAfter` says. -/
theorem find?_insertPreterminal {isNew : Bool}
    (h : t.insertPreterminal p = .ok (t', isNew)) (tag : Text) :
    t'.find? tag = blockAfter [p] tag (t.find? tag) := by
  have other (ne : p.lhs ≠ tag) : blockAfter [p] tag (t.find? tag) =
      t.find? tag :=
    blockAfter_of_ne (by simpa using ne) _
  rw [insertPreterminal] at h
  rcases found : t.find? p.lhs with - | b
  · -- a new tag, with its word
    rw [found] at h
    obtain ⟨rfl, -⟩ := Prod.mk.inj (Except.ok.inj h)
    rw [find?_put]
    by_cases here : p.lhs = tag
    · subst here
      simp [blockAfter, found]
    · rw [if_neg here, other here]
  · rw [found] at h
    simp only at h
    split at h
    · -- a tag that has just the word
      obtain ⟨rfl, -⟩ := Prod.mk.inj (Except.ok.inj h)
      rw [find?_register found]
      by_cases here : p.lhs = tag
      · subst here
        simp [blockAfter, found]
      · rw [if_neg here, other here]
    · cases h

/-- **A run of preterminals** does to the block of every tag what
`blockAfter` says. -/
theorem Registers.find?_eq (h : t.Registers ps t') (tag : Text) :
    t'.find? tag = blockAfter ps tag (t.find? tag) := by
  -- the first preterminal acts on the old block, the others on its result
  induction h with
  | nil => exact (blockAfter_of_ne (by simp) _).symm
  | cons step _ ih => rw [ih, find?_insertPreterminal step, ← blockAfter_cons]

/-- The preterminals registered by a line that fails are some of its own, and
the table afterwards is what registering them makes. -/
theorem FailsAfter.registers {line : Normalized} {conflict : Conflict}
    (h : t.FailsAfter line ps conflict t') :
    ps <+: line.preterminals ∧ t.Registers ps t' := by
  cases h with
  | preterminal split run refused => exact ⟨⟨_, split.symm⟩, run⟩
  | rule run refused => exact ⟨List.prefix_rfl, run⟩

end RuleTable

namespace Converter

/-! ### Runs of a line -/

/-- Registering preterminals up to the first conflict registers all of them,
or those before the one that makes the conflict. -/
theorem register_spec (lineNo : Nat) (ps : List Production)
    (c : Converter) :
    ∃ done rest, ps = done ++ rest ∧
      c.table.Registers done (c.register lineNo ps).2.table ∧
      ((c.register lineNo ps).1 = none ∧ rest = [] ∨
        ∃ conflict p qs, (c.register lineNo ps).1 = some conflict ∧
          rest = p :: qs ∧
          (c.register lineNo ps).2.table.insertPreterminal p =
            .error conflict) := by
  induction ps generalizing c with
  | nil => exact ⟨[], [], rfl, .nil, .inl ⟨rfl, rfl⟩⟩
  | cons p ps ih =>
    rw [register]
    rcases step : c.table.insertPreterminal p with conflict | ⟨table, isNew⟩
    · exact ⟨[], p :: ps, rfl, .nil, .inr ⟨conflict, p, ps, rfl, rfl, step⟩⟩
    · -- the event of a new preterminal leaves the table alone
      cases isNew with
      | false =>
        obtain ⟨done, rest, split, registers, outcome⟩ :=
          ih { c with table := table }
        exact ⟨p :: done, rest, congrArg (p :: ·) split,
          .cons step registers, outcome⟩
      | true =>
        obtain ⟨done, rest, split, registers, outcome⟩ :=
          ih (Converter.report { c with table := table }
            (.newPreterminal lineNo p))
        exact ⟨p :: done, rest, congrArg (p :: ·) split,
          .cons step registers, outcome⟩

/-- Adding a line that makes a conflict fails after some of its
preterminals. -/
theorem failsAfter_of_add {lineNo : Nat} {line : Normalized}
    {c c' : Converter} {conflict : Conflict}
    (h : c.add lineNo line = (some conflict, c')) :
    ∃ done, c.table.FailsAfter line done conflict c'.table := by
  obtain ⟨done, rest, split, registers, outcome⟩ :=
    c.register_spec lineNo line.preterminals
  rw [add] at h
  rcases run : c.register lineNo line.preterminals with ⟨- | other, d⟩
  · simp only [run, true_and, reduceCtorEq, false_and, exists_false,
      or_false] at h registers outcome
    rw [outcome, List.append_nil] at split
    rcases step : d.table.insert line.rule with refused | ⟨table, isNew⟩
    · rw [step] at h
      obtain ⟨same, rfl⟩ := Prod.mk.inj h
      obtain rfl := Option.some.inj same
      exact ⟨_, .rule (split ▸ registers) step⟩
    · rw [step] at h
      cases h
  · simp only [run, reduceCtorEq, false_and, false_or, Option.some.injEq]
      at h registers outcome
    obtain ⟨same, rfl⟩ := Prod.mk.inj h
    obtain rfl := Option.some.inj same
    obtain ⟨_, p, qs, rfl, rfl, refused⟩ := outcome
    exact ⟨done, .preterminal split registers refused⟩

/-- A line that can be read and makes a conflict fails after some of its
preterminals. -/
theorem processLine_conflict {c : Converter} {text : Text} {line : Line}
    {error : Error} (parsed : Line.parse text = .ok line)
    (h : (c.processLine text).1 = some error) :
    ∃ conflict done,
      error = .preterminalConflict (c.lines + 1) conflict ∧
        c.table.FailsAfter line.normalized done conflict
          (c.processLine text).2.table := by
  rw [processLine, parsed] at h ⊢
  simp only at h ⊢
  rcases run : (c.report (.parsedLine (c.lines + 1) line.form line.tag)).add
      (c.lines + 1) line.normalized with ⟨- | conflict, c'⟩
  · rw [run] at h
    cases h
  · rw [run] at h
    obtain ⟨done, fails⟩ := failsAfter_of_add run
    exact ⟨conflict, done, (Option.some.inj h).symm, fails⟩

end Converter

/-- A line with a word among siblings has an expansion of at least two
symbols, which no preterminal has. -/
theorem plain_normalized_ne_terminal {line : Line}
    (siblings : 1 < line.children.length) (word : Text) :
    Expansion.plain [.terminal word] ≠ line.normalized.rule.rhs.plain := by
  intro same
  have length := congrArg List.length same
  simp [Expansion.plain, Line.normalized, Normalized.ofChildren] at length
  omega

/-- **What a failing line leaves behind.**  A line that fails is not counted,
and its error has the number that the line would have.  If it cannot be read,
the table stays as it is.  Else the table is what registering those
preterminals of the line makes that come before the conflict.  Tags that were
there then keep exactly their expansions, and are registered if they were or
if they are among these preterminals; tags that are new have a word of the
line for their only expansion, and are registered; the line's own production
is not added. -/
theorem Converter.processLine_failing (c : Converter) (text : Text)
    (error : Error) (failed : (c.processLine text).1 = some error) :
    let after := (c.processLine text).2
    after.lines = c.lines ∧
      ((∃ fault, Line.parse text = .error fault ∧
          error = .malformedLine (c.lines + 1) text fault ∧
          after.table = c.table) ∨
        ∃ line conflict done, Line.parse text = .ok line ∧
          error = .preterminalConflict (c.lines + 1) conflict ∧
          c.table.FailsAfter line.normalized done conflict after.table ∧
          (∀ tag b, c.table.find? tag = some b →
            after.table.find? tag = some { b with
              registered := b.registered || done.any (·.lhs == tag) }) ∧
          (∀ tag b, c.table.find? tag = none →
            after.table.find? tag = some b →
            ∃ word ∈ line.children, Symbol.startsUppercase word = false ∧
              1 < line.children.length ∧
              Production.preterminalFor word ∈ done ∧
              tag = (Symbol.preterminalFor word).name ∧
              b = ⟨tag, [[.terminal word]], true⟩) ∧
          ∀ e ∈ after.table.expansionsOf line.tag,
            e.plain = line.normalized.rule.rhs.plain →
            e ∈ c.table.expansionsOf line.tag) := by
  intro after
  refine ⟨(c.lines_processLine text).2 (by simp [failed]), ?_⟩
  rcases parsed : Line.parse text with fault | line
  · left
    have run := processLine_malformed parsed c
    rw [run] at failed
    exact ⟨fault, rfl, (Option.some.inj failed).symm,
      congrArg (fun r => r.2.table) run⟩
  · -- all else follows from what registering does to blocks
    right
    obtain ⟨conflict, done, rfl, fails⟩ := processLine_conflict parsed failed
    obtain ⟨sub, registers⟩ := fails.registers
    -- a tag that is there gets its block back, maybe registered
    have kept (tag : Text) (b : Block) (old : c.table.find? tag = some b) :
        after.table.find? tag = some { b with
          registered := b.registered || done.any (·.lhs == tag) } := by
      rw [registers.find?_eq, old, RuleTable.blockAfter]
    -- any other is made by the first preterminal that asks for it
    have new (tag : Text) (b : Block) (none : c.table.find? tag = none)
        (found : after.table.find? tag = some b) :
        ∃ word ∈ line.children, Symbol.startsUppercase word = false ∧
          1 < line.children.length ∧
          Production.preterminalFor word ∈ done ∧
          tag = (Symbol.preterminalFor word).name ∧
          b = ⟨tag, [[.terminal word]], true⟩ := by
      rw [registers.find?_eq, none, RuleTable.blockAfter,
        Option.map_eq_some_iff] at found
      obtain ⟨p, first, rfl⟩ := found
      have m := List.mem_of_find?_eq_some first
      have tag_eq : p.lhs = tag := by simpa using List.find?_some first
      obtain ⟨word, siblings, child, lower, rfl⟩ :=
        mem_preterminals.1 (sub.subset m)
      exact ⟨word, child, lower, siblings, m, tag_eq.symm, rfl⟩
    refine ⟨line, conflict, done, rfl, rfl, fails, kept, new, ?_⟩
    intro e m same
    rcases old : c.table.find? line.tag with - | b
    · rcases found : after.table.find? line.tag with - | b
      · rw [RuleTable.expansionsOf_of_find?_none found] at m
        cases m
      · -- the tag of the line is one of its own preterminals
        obtain ⟨word, -, -, siblings, -, -, rfl⟩ := new _ b old found
        rw [RuleTable.expansionsOf_of_find? found] at m
        obtain rfl := List.mem_singleton.1 m
        exact absurd same (plain_normalized_ne_terminal siblings word)
    · -- a tag that was there has the expansions that it had
      rw [RuleTable.expansionsOf_of_find? (kept _ b old)] at m
      rwa [RuleTable.expansionsOf_of_find? old]

/-- A line whose tag is one of its own preterminals fails at its production.
By then its first word has registered a tag that was there, and its second
one has made its own tag. -/
theorem Converter.processLine_failing_self :
    let c := (start 0).processAll ["P_A --> a".toList]
    let after := (c.processLine "P_B --> a b B".toList).2
    (c.processLine "P_B --> a b B".toList).1 =
        some (.preterminalConflict 2
          ⟨"P_B".toList, "_b".toList, "P_A P_B B".toList⟩) ∧
      after.lines = 1 ∧
      (∃ line done, Line.parse "P_B --> a b B".toList = .ok line ∧
        c.table.FailsAfter line.normalized done
          ⟨"P_B".toList, "_b".toList, "P_A P_B B".toList⟩ after.table) ∧
      c.table.blocks = [⟨"P_A".toList, [[.terminal ['a']]], false⟩] ∧
      after.table.blocks = [⟨"P_A".toList, [[.terminal ['a']]], true⟩,
        ⟨"P_B".toList, [[.terminal ['b']]], true⟩] := by
  intro c after
  have failed : (c.processLine "P_B --> a b B".toList).1 =
      some (.preterminalConflict 2
        ⟨"P_B".toList, "_b".toList, "P_A P_B B".toList⟩) := by
    decide +kernel
  obtain ⟨lines, cause⟩ := processLine_failing c _ _ failed
  refine ⟨failed, lines, ?_, by decide +kernel, by decide +kernel⟩
  rcases cause with ⟨fault, -, ne, -⟩ | ⟨line, _, done, parsed, eq, fails, -⟩
  · cases ne
  · cases eq
    exact ⟨line, done, parsed, fails⟩

end TreebankGrammar
