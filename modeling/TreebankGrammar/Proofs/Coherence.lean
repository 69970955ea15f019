/-
TreebankGrammar/Proofs/Coherence.lean

The shape of every table that a converter reaches.

Whatever lines a converter is given, and whatever becomes of each, its table
is *coherent* (`Coherent`): expansions are in normal form, a registered
preterminal has just the word that it is named for, and no expansion uses a
preterminal that is not registered.  A line that fails half way may leave
preterminals that nothing uses.  If no line fails there are none of these
either (`IsUsed`).

Design.  The invariant is kept request by request.  What a request must
satisfy for this depends on the table: a production may use a preterminal
only once it is registered (`Request.IsProper`).  A line makes proper
requests since it registers its preterminals before it inserts its own
production, and since registered tags stay registered (`Grants.mono`).

Main result: `coherent_processAll`.
-/
import TreebankGrammar.Proofs.Reachable

namespace TreebankGrammar

/-! ### Normal form -/

/-- Whether an expansion is a single word, or has symbols and all of them
can be expanded. -/
def Expansion.IsNormal (e : Expansion) : Prop :=
  (∃ word, e = [.terminal word]) ∨ e ≠ [] ∧ ∀ s ∈ e, s.isTerminal = false

/-- What is homogeneous and not empty is in normal form. -/
theorem Expansion.isNormal_of_isHomogeneous {e : Expansion} (ne : e ≠ [])
    (h : e.isHomogeneous = true) : e.IsNormal := by
  rcases nonlexical : e.isNonlexical with - | -
  · left
    rw [isHomogeneous.eq_def, nonlexical, Bool.false_or] at h
    split at h
    · rename_i s
      cases s with
      | terminal word => exact ⟨word, rfl⟩
      | nonterminal name => cases h
      | preterminal name => cases h
    · cases h
  · right
    refine ⟨ne, fun s m => ?_⟩
    simpa [Symbol.isNonterminal] using List.all_eq_true.1 nonlexical s m

theorem Expansion.IsWritable.isNormal {e : Expansion} (h : e.IsWritable) :
    e.IsNormal :=
  isNormal_of_isHomogeneous h.ne_nil h.homogeneous

/-- The preterminals in the normal form of a line are those of its words
with siblings. -/
theorem preterminal_mem_normalized_iff {line : Line} {name : Text} :
    .preterminal name ∈ line.normalized.rule.rhs ↔
      ∃ word, 1 < line.children.length ∧ word ∈ line.children ∧
        Symbol.startsUppercase word = false ∧
        (Symbol.preterminalFor word).name = name := by
  have child : ∀ word, Normalized.childSymbol
      (decide (1 < line.children.length)) word = .preterminal name ↔
        1 < line.children.length ∧ Symbol.startsUppercase word = false ∧
          (Symbol.preterminalFor word).name = name := by
    intro word
    by_cases siblings : 1 < line.children.length <;>
      rcases upper : Symbol.startsUppercase word with - | - <;>
      simp [Normalized.childSymbol, Symbol.ofListing, siblings, upper,
        Symbol.preterminalFor, Symbol.name]
  show _ ∈ line.children.map _ ↔ _
  simp only [List.mem_map, child]
  exact exists_congr fun word => and_left_comm

/-! ### Coherent tables -/

namespace RuleTable

/-- The shape of a table that lines make. -/
structure Coherent (t : RuleTable) : Prop extends t.Sound where
  /-- Expansions are in normal form. -/
  normal : ∀ tag, ∀ e ∈ t.expansionsOf tag, e.IsNormal
  /-- A registered tag is named for a word, which is its only expansion. -/
  registered : ∀ tag, t.isPreterminal tag = true →
    ∃ word, tag = Symbol.preterminalMark ++ Text.upper word ∧
      t.expansionsOf tag = [[.terminal word]]
  /-- Preterminals in expansions are registered. -/
  resolved : ∀ tag, ∀ e ∈ t.expansionsOf tag, ∀ name,
    .preterminal name ∈ e → t.isPreterminal name = true

/-- Whether a tag stands for a symbol in an expansion of at least two. -/
def IsUsed (t : RuleTable) (tag : Text) : Prop :=
  ∃ other, ∃ e ∈ t.expansionsOf other,
    2 ≤ e.length ∧ ∃ s ∈ e, s.isTerminal = false ∧ s.name = tag

theorem Coherent.empty : empty.Coherent where
  toSound := .empty
  normal tag e m := by simp [expansionsOf_empty] at m
  registered tag reg := by simp [isPreterminal_empty] at reg
  resolved tag e m := by simp [expansionsOf_empty] at m

end RuleTable

/-! ### One request -/

/-- What a request must satisfy to keep a table coherent: to register the
preterminal of a word, or to insert a production in normal form whose
preterminals are registered. -/
def Request.IsProper (t : RuleTable) : Request → Prop
  | .register rule => ∃ word, rule = Production.preterminalFor word
  | .insert rule => rule.rhs.IsNormal ∧
      ∀ name, .preterminal name ∈ rule.rhs → t.isPreterminal name = true

namespace RuleTable

variable {t t' : RuleTable} {r : Request} {isNew : Bool}

/-- Granting a proper request keeps a table coherent. -/
theorem Coherent.grants (h : t.Coherent) (proper : r.IsProper t)
    (free : ¬ t.refuses r) (g : t.Grants r t' isNew) : t'.Coherent where
  toSound := h.toSound.grants free g
  normal tag e m := by
    rcases g.mem_expansionsOf m with old | rfl
    · exact h.normal tag e old
    · cases r with
      | register rule =>
        obtain ⟨word, rfl⟩ := proper
        exact .inl ⟨word, rfl⟩
      | insert rule => exact proper.1
  registered tag reg := by
    obtain ⟨e, single⟩ := (h.toSound.grants free g).single reg
    rw [g.isPreterminal_eq, Bool.or_eq_true, Bool.and_eq_true,
      beq_iff_eq] at reg
    rcases reg with old | ⟨new, rfl⟩
    · -- the word of a tag that was registered before is still there
      obtain ⟨word, eq, was⟩ := h.registered tag old
      have m : [.terminal word] ∈ t'.expansionsOf tag :=
        (g.expansionsOf_prefix tag).subset (by simp [was])
      rw [single, List.mem_singleton] at m
      exact ⟨word, eq, by rw [single, m]⟩
    · cases r with
      | insert rule => cases new
      | register rule =>
        obtain ⟨word, rfl⟩ := proper
        obtain ⟨f, m, same⟩ := g.exists_expansion
        rw [single, List.mem_singleton] at m
        rw [m] at same
        refine ⟨word, rfl, ?_⟩
        rw [single, Expansion.plain_eq_terminal_iff.1 same]
  resolved tag e m name me := by
    rcases g.mem_expansionsOf m with old | rfl
    · exact g.mono (h.resolved tag e old name me)
    · cases r with
      | register rule =>
        obtain ⟨word, rfl⟩ := proper
        simp [Production.preterminalFor] at me
      | insert rule => exact g.mono (proper.2 name me)

/-! ### Runs of requests -/

/-- Registering the preterminals of words, up to the first refusal, keeps a
table coherent; without a refusal, all of them are registered. -/
theorem Coherent.serveAll_register (h : t.Coherent) {ps : List Production}
    (words : ∀ p ∈ ps, ∃ word, p = Production.preterminalFor word) :
    (t.serveAll (ps.map Request.register)).2.Coherent ∧
      ((t.serveAll (ps.map Request.register)).1 = none → ∀ tag,
        t.isPreterminal tag = true ∨ tag ∈ ps.map Production.lhs →
          (t.serveAll (ps.map Request.register)).2.isPreterminal tag =
            true) := by
  induction ps generalizing t with
  | nil =>
    refine ⟨h, fun _ tag m => ?_⟩
    rcases m with old | m
    · exact old
    · cases m
  | cons p ps ih =>
    have later : ∀ q ∈ ps, ∃ word, q = Production.preterminalFor word :=
      fun q m => words q (List.mem_cons_of_mem _ m)
    rw [List.map_cons, serveAll]
    rcases serve_spec h.toSound (.register p) with
      ⟨-, e⟩ | ⟨free, t', isNew, e, g⟩
    · rw [e]
      exact ⟨h, fun none => by cases none⟩
    · rw [e]
      have proper : (Request.register p).IsProper t :=
        words p List.mem_cons_self
      obtain ⟨coherent, registered⟩ := ih (h.grants proper free g) later
      refine ⟨coherent, fun none tag m => registered none tag ?_⟩
      rcases m with old | m
      · exact .inl (g.mono old)
      · rcases List.mem_cons.1 m with rfl | m
        · exact .inl (g.registers rfl)
        · exact .inr m

/-- The requests of a line that can be read, up to the first refusal, keep a
table coherent. -/
theorem Coherent.serveAll_requests (h : t.Coherent) {text : Text}
    {line : Line} (parsed : Line.parse text = .ok line) :
    (t.serveAll line.requests).2.Coherent := by
  have words : ∀ p ∈ line.normalized.preterminals,
      ∃ word, p = Production.preterminalFor word := by
    intro p m
    obtain ⟨word, -, -, -, eq⟩ := mem_preterminals.1 m
    exact ⟨word, eq.symm⟩
  have normal : line.normalized.rule.rhs.IsNormal := by
    have writable := isWritable_of_mem_requests parsed
      (r := .insert line.normalized.rule) (by simp [Line.requests])
    exact writable.expansion.isNormal
  obtain ⟨coherent, registered⟩ := h.serveAll_register words
  rw [Line.requests, serveAll_append]
  rcases run : t.serveAll (line.normalized.preterminals.map .register) with
    ⟨- | conflict, t'⟩
  · rw [run] at coherent registered
    have proper : (Request.insert line.normalized.rule).IsProper t' := by
      refine ⟨normal, fun name m => registered rfl name (.inr ?_)⟩
      obtain ⟨word, siblings, mc, lower, rfl⟩ :=
        preterminal_mem_normalized_iff.1 m
      exact List.mem_map_of_mem (f := Production.lhs)
        (mem_preterminals.2 ⟨word, siblings, mc, lower, rfl⟩)
    simp only [serveAll]
    rcases serve_spec coherent.toSound (.insert line.normalized.rule) with
      ⟨-, e⟩ | ⟨free, t'', isNew, e, g⟩
    · rw [e]
      exact coherent
    · rw [e]
      exact coherent.grants proper free g
  · rw [run] at coherent
    exact coherent

end RuleTable

namespace Converter

/-! ### Lines -/

/-- The errors of lines that a converter is given one after the other, going
on after each. -/
def failures : List Text → Converter → List Error
  | [], _ => []
  | text :: texts, c =>
    (c.processLine text).1.toList ++ failures texts (c.processLine text).2

/-- Lines of which none fails are taken in to the end. -/
theorem processLines_of_failures_eq_nil {texts : List Text} {c : Converter}
    (h : c.failures texts = []) :
    c.processLines (texts.map some) = (none, c.processAll texts) := by
  induction texts generalizing c with
  | nil => rfl
  | cons text texts ih =>
    rw [failures, List.append_eq_nil_iff] at h
    rw [List.map_cons, processLines, processAll, List.foldl_cons]
    rcases run : c.processLine text with ⟨- | error, c'⟩
    · rw [run] at h
      exact ih h.2
    · rw [run] at h
      cases h.1

/-- Lines keep a table coherent, whatever becomes of each. -/
theorem coherent_processAll_of_coherent (texts : List Text) {c : Converter}
    (h : c.table.Coherent) : (c.processAll texts).table.Coherent := by
  induction texts generalizing c with
  | nil => exact h
  | cons text texts ih =>
    have step : (c.processLine text).2.table.Coherent := by
      rw [table_processLine]
      rcases parsed : Line.parse text with fault | line
      · simpa [parsedLine?, parsed, Except.toOption, requestsOf,
          RuleTable.serveAll] using h
      · rw [parsedLine?_some_iff.2 parsed]
        simpa [requestsOf] using h.serveAll_requests parsed
    exact ih step

end Converter

/-- The preterminals of lines that were taken in to the end are used. -/
theorem RuleTable.Records.isUsed {t : RuleTable} {lines : List Line}
    (h : t.Records (requestsOf lines)) {tag : Text}
    (reg : t.isPreterminal tag = true) : t.IsUsed tag := by
  obtain ⟨r, m, registers, rfl⟩ := (h.isPreterminal_iff tag).1 reg
  cases r with
  | insert rule => cases registers
  | register rule =>
    obtain ⟨word, ⟨line, ml, siblings, mc, lower⟩, rfl⟩ :=
      register_mem_requestsOf.1 m
    -- the line that has the word among siblings uses its preterminal
    obtain ⟨e, me, same⟩ := h.exists_expansion
      (insert_mem_requestsOf.2 ⟨line, ml, rfl⟩)
    have used : Symbol.preterminalFor word ∈ line.normalized.rule.rhs :=
      preterminal_mem_normalized_iff.2
        ⟨word, siblings, mc, lower, rfl⟩
    have used' : (Symbol.preterminalFor word).plain ∈ e.plain := by
      rw [same]
      exact List.mem_map_of_mem used
    obtain ⟨s, ms, eq⟩ := List.mem_map.1 used'
    have length : e.length = line.children.length := by
      simpa [Expansion.plain, Line.normalized, Normalized.ofChildren] using
        congrArg List.length same
    refine ⟨_, e, me, length ▸ siblings, s, ms, ?_⟩
    exact Symbol.plain_eq_iff.1 eq

/-- **The shape of reachable tables.**  After any lines, whatever became of
each, the table is coherent.  If none of the lines failed, every registered
preterminal is used. -/
theorem coherent_processAll (interval : Nat) (texts : List Text) :
    ((Converter.start interval).processAll texts).table.Coherent ∧
      ((Converter.start interval).failures texts = [] → ∀ tag,
        ((Converter.start interval).processAll texts).table.isPreterminal
            tag = true →
          ((Converter.start interval).processAll texts).table.IsUsed tag) := by
  refine ⟨Converter.coherent_processAll_of_coherent texts .empty, ?_⟩
  intro none tag reg
  have run := Converter.processLines_of_failures_eq_nil none
  have spec := Converter.processLines_spec (texts.map some)
    (Converter.start interval)
  rw [run] at spec
  have records := (RuleTable.serveAll_spec _).2 (spec.1.1 rfl).2
  have table := spec.2 rfl
  exact (table ▸ records).isUsed reg

/-- A listing whose second line fails after it registered a preterminal: the
table is coherent, but nothing uses that preterminal.  With a second line
that does not fail, the preterminal of the first one is used. -/
theorem coherent_processAll_dog :
    ((Converter.start 0).processAll
        ["X --> dog NN".toList, "P_DOG --> cat NN".toList]).table.Coherent ∧
      ((Converter.start 0).processAll ["X --> dog NN".toList,
        "P_DOG --> cat NN".toList]).table.isPreterminal "P_CAT".toList =
          true ∧
      (∀ b ∈ ((Converter.start 0).processAll
          ["X --> dog NN".toList, "P_DOG --> cat NN".toList]).table.blocks,
        ∀ e ∈ b.expansions, ∀ s ∈ e, s.name ≠ "P_CAT".toList) ∧
      ((Converter.start 0).processAll ["X --> dog NN".toList,
        "P_DOG --> dog".toList]).table.IsUsed "P_DOG".toList :=
  ⟨(coherent_processAll 0 _).1, by decide +kernel, by decide +kernel,
    (coherent_processAll 0 _).2 (by decide +kernel) _ (by decide +kernel)⟩

end TreebankGrammar
