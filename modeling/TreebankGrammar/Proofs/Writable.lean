/-
TreebankGrammar/Proofs/Writable.lean

Productions that can be written and read back.

Whatever a listing holds, its lines make productions of one sort: the tag and
the name of every symbol are single words, only terminals have names that do
not start with an uppercase letter of ASCII, and an expansion is homogeneous
and not empty.  Such productions are *writable*.

The expansion of a writable production is read back from its written form
(`expansion?_written`), and this form contains no mark that could be taken for
the end of the expansion (`not_closeMark_infix`): the mark has a colon between
spaces, and no symbol is written as a colon.

Design.  To be read back, an expansion has to be *legible* only
(`Expansion.IsLegible`): its symbols are written as single words, and none but
terminals begin with the mark of terminals.

The preterminal of a word must be a single word too.  The uppercase
form of a character has no blank unless the character is one, which is read
off the table of uppercase forms (`not_isBlank_upperChar`).
-/
import TreebankGrammar.Proofs.Acceptance
import TreebankGrammar.Proofs.Words

namespace TreebankGrammar

open Text (IsToken)

/-! ### Uppercase forms -/

/-- No run of the uppercase table has a blank among its images. -/
theorem upperRuns_not_blank : ∀ run ∈ upperRuns, ∀ r ∈ blankRanges,
    run.target + (run.last - run.first) < r.1 ∨ r.2 < run.target := by
  decide +kernel

theorem upperExpansions_not_blank : ∀ entry ∈ upperExpansions,
    ∀ image ∈ entry.2, isBlank (Char.ofNat image) = false := by
  decide +kernel

/-- A code point outside the ranges of blanks is not blank, whether or not it
is that of a character. -/
theorem not_isBlank_ofNat {n : Nat}
    (h : ∀ r ∈ blankRanges, n < r.1 ∨ r.2 < n) :
    isBlank (Char.ofNat n) = false := by
  by_cases valid : n.isValidChar
  · have code : (Char.ofNat n).toNat = n := by
      rw [Char.ofNat, dif_pos valid]
      rfl
    rw [isBlank, inRanges, List.any_eq_false]
    intro r m
    have outside := h r m
    rw [code, Bool.and_eq_true, decide_eq_true_eq, decide_eq_true_eq]
    omega
  · rw [Char.ofNat, dif_neg valid]
    decide

/-- The uppercase form of a character that is not blank has no blank. -/
theorem not_isBlank_upperChar {c d : Char} (h : isBlank c = false)
    (m : d ∈ upperChar c) : isBlank d = false := by
  rw [upperChar] at m
  -- the character is in a run, has an entry of its own, or stays
  rcases run : upperRuns.findSome? (fun run => run.image? c.toNat) with - | n
  · rcases entry : upperExpansions.lookup c.toNat with - | images
    · simp only [run, entry, List.mem_singleton] at m
      exact m ▸ h
    · simp only [run, entry, List.mem_map] at m
      obtain ⟨image, mi, rfl⟩ := m
      obtain ⟨before, after, eq, -⟩ := List.lookup_eq_some_iff.1 entry
      refine upperExpansions_not_blank (c.toNat, images) ?_ image mi
      rw [eq]
      simp
  · simp only [run, List.mem_singleton] at m
    obtain ⟨r, mr, image⟩ := List.exists_of_findSome?_eq_some run
    rw [CaseRun.image?] at image
    split at image
    · rename_i within
      obtain rfl := Option.some.inj image
      subst m
      refine not_isBlank_ofNat fun range mb => ?_
      have outside := upperRuns_not_blank r mr range mb
      omega
    · cases image

/-- The preterminal of a word is a word. -/
theorem isToken_preterminalFor {word : Text} (h : IsToken word) :
    IsToken (Symbol.preterminalFor word).name := by
  constructor
  · exact List.append_ne_nil_of_left_ne_nil (List.cons_ne_nil _ _) _
  · intro c m
    rcases List.mem_append.1 m with mark | upper
    · rcases List.mem_cons.1 mark with rfl | mark
      · decide
      · obtain rfl := List.mem_singleton.1 mark
        decide
    · obtain ⟨d, md, mc⟩ := List.mem_flatMap.1 upper
      exact not_isBlank_upperChar (h.not_blank d md) mc

/-! ### Symbols -/

/-- A symbol with one word for its name, which starts with an uppercase
letter unless the symbol is a terminal. -/
structure Symbol.IsWritable (s : Symbol) : Prop where
  isToken : IsToken s.name
  upper : s.isTerminal = false → startsUppercase s.name = true

namespace Symbol

variable {s : Symbol}

/-- Whether the written form of a symbol tells if it is a terminal: the mark
of terminals does not stand in front of any other name. -/
def IsLegible (s : Symbol) : Prop :=
  s.isTerminal = false → s.name.head? ≠ some terminalMark

theorem head?_ne_terminalMark {name : Text}
    (h : startsUppercase name = true) : name.head? ≠ some terminalMark := by
  intro mark
  obtain ⟨rest, rfl⟩ := List.head?_eq_some_iff.1 mark
  have upper : terminalMark.isUpper = true := h
  exact absurd upper (by decide)

theorem IsWritable.isLegible (h : s.IsWritable) : s.IsLegible :=
  fun other => head?_ne_terminalMark (h.upper other)

/-- What is not written as a terminal is not read as one. -/
theorem plain_ofRuleFile {name : Text} (h : name.head? ≠ some terminalMark) :
    (ofRuleFile name).plain = nonterminal name := by
  cases name with
  | nil => rfl
  | cons c rest =>
    have ne : c ≠ terminalMark := by simpa using h
    rw [ofRuleFile, if_neg ne]
    split <;> rfl

/-- Symbols are read back from their written form, up to the difference
between preterminals and other nonterminals. -/
theorem IsLegible.plain_ofRuleFile_written (h : s.IsLegible) :
    (ofRuleFile s.written).plain = s.plain := by
  cases s with
  | nonterminal name => exact plain_ofRuleFile (h rfl)
  | preterminal name => exact plain_ofRuleFile (h rfl)
  | terminal word => rfl

theorem IsWritable.isToken_written (h : s.IsWritable) :
    IsToken s.written := by
  cases s with
  | nonterminal name => exact h.isToken
  | preterminal name => exact h.isToken
  | terminal word =>
    refine ⟨List.cons_ne_nil _ _, fun c m => ?_⟩
    rcases List.mem_cons.1 m with rfl | m
    · decide
    · exact h.isToken.not_blank c m

theorem IsWritable.written_ne_colon (h : s.IsWritable) :
    s.written ≠ [':'] := by
  intro colon
  cases s with
  | nonterminal name =>
    exact absurd (colon ▸ h.upper rfl : startsUppercase [':'] = true)
      (by decide)
  | preterminal name =>
    exact absurd (colon ▸ h.upper rfl : startsUppercase [':'] = true)
      (by decide)
  | terminal word => exact absurd (List.cons_eq_cons.1 colon).1 (by decide)

theorem isWritable_terminal {word : Text} (h : IsToken word) :
    (terminal word).IsWritable := ⟨h, fun e => by cases e⟩

theorem isWritable_preterminalFor {word : Text} (h : IsToken word) :
    (preterminalFor word).IsWritable := ⟨isToken_preterminalFor h, fun _ => rfl⟩

theorem isWritable_childSymbol {child : Text} (siblings : Bool)
    (h : IsToken child) :
    (Normalized.childSymbol siblings child).IsWritable := by
  rcases upper : startsUppercase child with - | -
  · cases siblings
    · simpa [Normalized.childSymbol, ofListing, upper] using
        isWritable_terminal h
    · simpa [Normalized.childSymbol, ofListing, upper] using
        isWritable_preterminalFor h
  · have writable : (nonterminal child).IsWritable := ⟨h, fun _ => upper⟩
    simpa [Normalized.childSymbol, ofListing, upper] using writable

end Symbol

/-! ### Expansions -/

/-- The mark after an expansion has a colon that is a word of its own. -/
theorem colon_mem_words {t : Text} (h : closeMark <:+: t) :
    [':'] ∈ Text.words t := by
  obtain ⟨before, after, eq⟩ := h
  have cut : t = (before ++ [']']) ++ ' ' :: ([':'] ++ ' ' :: after) := by
    rw [← eq]
    simp [closeMark]
  have token : IsToken [':'] :=
    ⟨by decide, List.forall_mem_singleton.2 (by decide)⟩
  rw [cut, Text.words_append_blank (c := ' ') (by decide),
    Text.words_append_blank (c := ' ') (by decide), token.words_eq]
  simp

/-- A nonempty homogeneous expansion of writable symbols. -/
structure Expansion.IsWritable (e : Expansion) : Prop where
  ne_nil : e ≠ []
  homogeneous : e.isHomogeneous = true
  symbols : ∀ s ∈ e, s.IsWritable

namespace Expansion

variable {e : Expansion}

/-- Whether all symbols of an expansion are legible and are written as one
word. -/
def IsLegible (e : Expansion) : Prop :=
  ∀ s ∈ e, s.IsLegible ∧ IsToken s.written

theorem IsWritable.isLegible (h : e.IsWritable) : e.IsLegible :=
  fun s m => ⟨(h.symbols s m).isLegible, (h.symbols s m).isToken_written⟩

theorem IsLegible.words_written (h : e.IsLegible) :
    Text.words e.written = e.map Symbol.written := by
  refine Text.words_join fun t m => ?_
  obtain ⟨s, ms, rfl⟩ := List.mem_map.1 m
  exact (h s ms).2

/-- The expansion that is read from the written form of an expansion. -/
def reread (e : Expansion) : Expansion :=
  (e.map Symbol.written).map Symbol.ofRuleFile

theorem IsLegible.plain_reread (h : e.IsLegible) :
    e.reread.plain = e.plain := by
  rw [reread, plain, plain, List.map_map, List.map_map]
  exact List.map_congr_left fun s m => (h s m).1.plain_ofRuleFile_written

/-- **The written form of a legible expansion** determines its symbols, and is
determined by them. -/
theorem IsLegible.plain_eq_iff (he : e.IsLegible) {f : Expansion}
    (hf : f.IsLegible) : e.plain = f.plain ↔ e.written = f.written := by
  constructor
  · intro same
    rw [← written_plain e, same, written_plain]
  · intro same
    have words : e.map Symbol.written = f.map Symbol.written := by
      rw [← he.words_written, same, hf.words_written]
    rw [← he.plain_reread, ← hf.plain_reread, reread, reread, words]

/-- **Reading an expansion back**: the reader takes the written form, and
finds the symbols that were written. -/
theorem expansion?_written (h : e.IsWritable) :
    WeightedRule.expansion? e.written = .ok e.reread := by
  have homogeneous : e.reread.isHomogeneous = true := by
    rw [← isHomogeneous_plain, h.isLegible.plain_reread,
      isHomogeneous_plain, h.homogeneous]
  have nonempty : e.reread.isEmpty = false := by simpa [reread] using h.ne_nil
  rw [reread] at homogeneous nonempty
  simp only [WeightedRule.expansion?, h.isLegible.words_written, reread,
    nonempty, homogeneous, Bool.false_eq_true, if_false, if_true]

/-- The written form has no mark that ends an expansion. -/
theorem IsWritable.not_closeMark_infix (h : e.IsWritable) :
    ¬ closeMark <:+: e.written := by
  intro mark
  have colon := colon_mem_words mark
  rw [h.isLegible.words_written] at colon
  obtain ⟨s, m, written⟩ := List.mem_map.1 colon
  exact (h.symbols s m).written_ne_colon written

end Expansion

/-! ### Productions -/

/-- A production with one word for its tag and a writable expansion. -/
structure Production.IsWritable (p : Production) : Prop where
  tag : IsToken p.lhs
  expansion : p.rhs.IsWritable

theorem isWritable_singleton {word : Text} (h : IsToken word) :
    Expansion.IsWritable [.terminal word] where
  ne_nil := List.cons_ne_nil _ _
  homogeneous := rfl
  symbols s m := by
    obtain rfl := List.mem_singleton.1 m
    exact Symbol.isWritable_terminal h

/-- Children make a homogeneous expansion: beside siblings there are no
terminals. -/
theorem isHomogeneous_childSymbols (children : List Text) :
    Expansion.isHomogeneous (children.map
      (Normalized.childSymbol (decide (1 < children.length)))) = true := by
  rcases children with - | ⟨child, - | ⟨other, children⟩⟩
  · rfl
  · cases one : (Normalized.childSymbol false child).isTerminal <;>
      simp [Expansion.isHomogeneous, Expansion.isNonlexical,
        Symbol.isNonterminal, one]
  · have nonlexical : ∀ child,
        (Normalized.childSymbol true child).isNonterminal = true := by
      intro child
      rcases upper : Symbol.startsUppercase child with - | - <;>
        simp [Normalized.childSymbol, Symbol.ofListing, upper,
          Symbol.preterminalFor, Symbol.isNonterminal, Symbol.isTerminal]
    simp [Expansion.isHomogeneous, Expansion.isNonlexical, nonlexical]

theorem isWritable_childSymbols {children : List Text} (ne : children ≠ [])
    (h : ∀ child ∈ children, IsToken child) :
    Expansion.IsWritable (children.map
      (Normalized.childSymbol (decide (1 < children.length)))) where
  ne_nil := by simpa using ne
  homogeneous := isHomogeneous_childSymbols children
  symbols s m := by
    obtain ⟨child, mc, rfl⟩ := List.mem_map.1 m
    exact Symbol.isWritable_childSymbol _ (h child mc)

/-- The tag and the children of a line are words, and there are children. -/
theorem Line.isToken_of_parse {text : Text} {line : Line}
    (h : Line.parse text = .ok line) :
    IsToken line.tag ∧ line.children ≠ [] ∧
      ∀ child ∈ line.children, IsToken child := by
  -- the first two words may be parameters, and are dropped then
  have fields : ∀ (form : LineForm) {ws : List Text},
      ofFields form ws = .ok line → (∀ w ∈ ws, IsToken w) →
      IsToken line.tag ∧ line.children ≠ [] ∧
        ∀ child ∈ line.children, IsToken child := by
    intro form ws e tokens
    rcases ws with - | ⟨tag, - | ⟨separator, - | ⟨child, children⟩⟩⟩ <;>
      simp only [ofFields, reduceCtorEq, Except.ok.injEq] at e
    subst e
    simp only [List.mem_cons, forall_eq_or_imp] at tokens
    refine ⟨tokens.1, List.cons_ne_nil _ _, ?_⟩
    simpa using tokens.2.2
  have tokens : ∀ w ∈ Text.words text, IsToken w :=
    fun w m => Text.isToken_of_mem_words m
  rw [parse, ofWords.eq_def] at h
  split at h
  · cases h
  · split at h <;> cases h
  · rename_i first second others eq
    rw [eq] at tokens
    split at h
    · split at h
      · exact fields _ h fun w m => tokens w (by simp [m])
      · cases h
    · exact fields _ h tokens

/-- **Lines request writable productions only.** -/
theorem isWritable_of_mem_requests {text : Text} {line : Line}
    (h : Line.parse text = .ok line) {r : Request} (m : r ∈ line.requests) :
    r.rule.IsWritable := by
  obtain ⟨tag, ne, children⟩ := Line.isToken_of_parse h
  rcases List.mem_append.1 m with m | m
  · obtain ⟨p, mp, rfl⟩ := List.mem_map.1 m
    obtain ⟨word, -, mc, -, rfl⟩ := mem_preterminals.1 mp
    exact ⟨isToken_preterminalFor (children word mc),
      isWritable_singleton (children word mc)⟩
  · obtain rfl := List.mem_singleton.1 m
    exact ⟨tag, isWritable_childSymbols ne children⟩

theorem isWritable_of_mem_requestsOf {listing : Bytes} {r : Request}
    (m : r ∈ requestsOf listing.parsedLines) : r.rule.IsWritable := by
  obtain ⟨line, ml, mr⟩ := List.mem_flatMap.1 m
  obtain ⟨text, -, parsed⟩ := List.mem_filterMap.1 ml
  obtain ⟨t, line', rfl, parsed'⟩ := isReadable_iff.2 ⟨line, parsed⟩
  rw [parsedLine?_some_iff.2 parsed'] at parsed
  exact isWritable_of_mem_requests (Option.some.inj parsed ▸ parsed') mr

end TreebankGrammar
