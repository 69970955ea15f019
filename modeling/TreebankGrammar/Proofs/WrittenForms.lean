/-
TreebankGrammar/Proofs/WrittenForms.lean

Symbols and their written forms.

A symbol is made of a text in one of three ways: as a child of a listing, as a
child of a rule file, or as the preterminal of a word.  The text may be any; it
may be empty, and it may begin with either of the two marks.  However two
symbols were made (`Symbol.IsMade`), they are equal just if they are written
in the same way.

This is so since the name of a symbol begins with the mark of terminals only
if the symbol is a terminal (`Symbol.IsMade.isLegible`): a child of a listing
that begins with it is a terminal, whose written form has the mark twice, and
a child of a rule file loses it.  Which texts begin with `P_` does not matter,
as equality does not tell preterminals from other nonterminals.

Equality has to agree with what a hash is computed from (`Symbol.hashed`), and
it does: these bytes begin with the kind of leaf, and the byte at their end
keeps names apart.

Main result: `written_identifies`.
-/
import TreebankGrammar.Proofs.Writable
import TreebankGrammar.Text.Lines

namespace TreebankGrammar

open Text (IsToken)

/-- Texts are told apart by their bytes. -/
theorem Text.encode_inj {s t : Text} :
    Text.encode s = Text.encode t ↔ s = t := by
  refine ⟨fun same => ?_, congrArg _⟩
  have read := congrArg Bytes.decode? same
  rw [Bytes.decode?_encode, Bytes.decode?_encode] at read
  exact Option.some.inj read

/-! ### How symbols are made -/

namespace Symbol

variable {s t : Symbol}

/-- A symbol made of some text: the one that a child of a listing or of a rule
file stands for, or the preterminal of a word. -/
inductive IsMade : Symbol → Prop
  | ofListing (token : Text) : IsMade (ofListing token)
  | ofRuleFile (token : Text) : IsMade (ofRuleFile token)
  | preterminalFor (word : Text) : IsMade (preterminalFor word)

theorem isLegible_ofListing (token : Text) : (ofListing token).IsLegible := by
  intro other
  rcases upper : startsUppercase token with - | -
  · rw [ofListing, upper] at other
    cases other
  · rw [ofListing, upper]
    exact head?_ne_terminalMark upper

theorem isLegible_ofRuleFile (token : Text) :
    (ofRuleFile token).IsLegible := by
  cases token with
  | nil => exact fun _ => by decide
  | cons c word =>
    intro other
    by_cases mark : c = terminalMark
    · rw [ofRuleFile, if_pos mark] at other
      cases other
    · -- of either other kind, the name is the whole token
      have name : (ofRuleFile (c :: word)).name = c :: word := by
        rw [ofRuleFile, if_neg mark]
        split <;> rfl
      rw [name, List.head?_cons]
      exact fun same => mark (Option.some.inj same)

theorem isLegible_preterminalFor (word : Text) :
    (preterminalFor word).IsLegible :=
  fun _ => head?_ne_terminalMark rfl

/-- **Made symbols are legible.** -/
theorem IsMade.isLegible (h : s.IsMade) : s.IsLegible := by
  cases h with
  | ofListing token => exact isLegible_ofListing token
  | ofRuleFile token => exact isLegible_ofRuleFile token
  | preterminalFor word => exact isLegible_preterminalFor word

/-- Legible symbols are equal just if they are written in the same way. -/
theorem IsLegible.plain_eq_iff (hs : s.IsLegible) (ht : t.IsLegible) :
    s.plain = t.plain ↔ s.written = t.written := by
  constructor
  · intro same
    rw [← written_plain s, same, written_plain]
  · intro same
    rw [← hs.plain_ofRuleFile_written, same, ht.plain_ofRuleFile_written]

/-! ### Hashes -/

/-- The bytes that the hash of a symbol is computed from: whether it is a
terminal, then its name, then a byte that is in no name. -/
def hashed (s : Symbol) : Bytes :=
  (if s.isTerminal then 1 else 0) :: (Text.encode s.name ++ [0xFF])

/-- Symbols are hashed alike just if they are equal. -/
theorem hashed_eq_iff : s.hashed = t.hashed ↔ s.plain = t.plain := by
  rw [plain_eq_iff, hashed, hashed, List.cons_eq_cons,
    List.append_left_inj, Text.encode_inj]
  refine and_congr_left fun _ => ?_
  cases s.isTerminal <;> cases t.isTerminal <;> decide

end Symbol

/-! ### Expansions -/

/-- An expansion of made symbols, each of them written as one word. -/
def Expansion.IsMade (e : Expansion) : Prop :=
  ∀ s ∈ e, s.IsMade ∧ IsToken s.written

theorem Expansion.IsMade.isLegible {e : Expansion} (h : e.IsMade) :
    e.IsLegible :=
  fun s m => ⟨(h s m).1.isLegible, (h s m).2⟩

/-- **Symbols are known by their written form.**  However two symbols were
made, and of whatever texts, they are equal, and hashed alike, just if they
are written in the same way.  Reading what is written of a symbol gives an
equal one, and writing what is read of a text gives the text.

The same is true of lists of symbols, if each of them is written as a word:
they are equal just if they are written in the same way, and reading the words
of what is written of one gives an equal one. -/
theorem written_identifies :
    (∀ s t : Symbol, s.IsMade → t.IsMade →
      (s.plain = t.plain ↔ s.written = t.written) ∧
        (s.hashed = t.hashed ↔ s.written = t.written)) ∧
    (∀ s : Symbol, s.IsMade →
      (Symbol.ofRuleFile s.written).plain = s.plain) ∧
    (∀ token, (Symbol.ofRuleFile token).written = token) ∧
    (∀ e f : Expansion, e.IsMade → f.IsMade →
      (e.written = f.written ↔ e.plain = f.plain)) ∧
    ∀ e : Expansion, e.IsMade →
      Expansion.plain ((Text.words e.written).map Symbol.ofRuleFile) =
        e.plain := by
  refine ⟨fun s t hs ht => ?_, fun s hs => ?_, Symbol.written_ofRuleFile,
    fun e f he hf => ?_, fun e he => ?_⟩
  · have same := hs.isLegible.plain_eq_iff ht.isLegible
    exact ⟨same, Symbol.hashed_eq_iff.trans same⟩
  · exact hs.isLegible.plain_ofRuleFile_written
  · exact (he.isLegible.plain_eq_iff hf.isLegible).symm
  · rw [he.isLegible.words_written]
    exact he.isLegible.plain_reread

/-- A child of a listing that has the name of a word's preterminal is equal to
it; a word that begins with the mark of terminals is not equal to the terminal
that is written like it, and both are read back beside each other. -/
theorem written_identifies_marks :
    let dog := Symbol.ofListing "P_DOG".toList
    let under := Symbol.ofListing "_x".toList
    let plain := Symbol.ofRuleFile "_x".toList
    dog ≠ Symbol.preterminalFor "dog".toList ∧
      dog.plain = (Symbol.preterminalFor "dog".toList).plain ∧
      dog.hashed = (Symbol.preterminalFor "dog".toList).hashed ∧
      under.plain ≠ plain.plain ∧ under.hashed ≠ plain.hashed ∧
      (Symbol.ofRuleFile (Symbol.ofListing []).written).plain =
        (Symbol.ofListing []).plain ∧
      Expansion.written [under, plain, dog] = "__x _x P_DOG".toList ∧
      Expansion.plain ((Text.words "__x _x P_DOG".toList).map
        Symbol.ofRuleFile) = Expansion.plain [under, plain, dog] ∧
      Expansion.plain [under, plain] ≠ Expansion.plain [plain, under] := by
  intro dog under plain
  obtain ⟨equal, reread, -, equalLists, rereadList⟩ := written_identifies
  have made : Expansion.IsMade [under, plain, dog] := by
    have ne_nil : ∀ s ∈ [under, plain, dog], s.written ≠ [] := by decide
    have not_blank : ∀ s ∈ [under, plain, dog],
        s.written.any isBlank = false := by decide
    intro s m
    refine ⟨?_, ne_nil s m, by simpa using not_blank s m⟩
    simp only [List.mem_cons, List.not_mem_nil, or_false] at m
    rcases m with rfl | rfl | rfl
    · exact .ofListing _
    · exact .ofRuleFile _
    · exact .ofListing _
  have pair := equal dog (Symbol.preterminalFor "dog".toList) (.ofListing _)
    (.preterminalFor _)
  have other := equal under plain (.ofListing _) (.ofRuleFile _)
  have written : Expansion.written [under, plain, dog] =
      "__x _x P_DOG".toList := by decide
  refine ⟨by decide, pair.1.2 (by decide), pair.2.2 (by decide),
    mt other.1.1 (by decide), mt other.2.1 (by decide),
    reread _ (.ofListing _), written, written ▸ rereadList _ made, ?_⟩
  have two : Expansion.IsMade [under, plain] :=
    fun s m => made s (List.mem_append_left [dog] m)
  have swapped : Expansion.IsMade [plain, under] :=
    fun s m => two s ((List.Perm.swap under plain []).mem_iff.1 m)
  exact mt (equalLists _ _ two swapped).2 (by decide)

end TreebankGrammar
