/-
TreebankGrammar/Proofs/NormalForm.lean

The normal form of a line.

Normalizing a line can be done child by child: the symbol of the child goes
to the end of the expansion, and the production of its preterminal, if it has
one, to the end of the others, unless an equal one is there (`takeIn`).
Nothing is lost or changed on the way, so the symbols stand at the places of
their children, and the productions in the order in which their words occur
first (`ofChildren_eq_foldl`, `IsNormalForm`).

Equality of productions looks at their words and not at their tags.  Two
words with one uppercase form therefore both bring a production, and a line
with such words is in conflict with itself, whatever a table holds
(`exists_conflict_of_collision`).

Main result: `normalized_spec`.
-/
import Mathlib.Data.List.Induction
import TreebankGrammar.Proofs.FailingLine

namespace TreebankGrammar

/-! ### Capital letters -/

/-- Whether a text starts with one of the letters `A` to `Z`. -/
def IsCapitalised (t : Text) : Prop :=
  ∃ c rest, t = c :: rest ∧ 'A' ≤ c ∧ c ≤ 'Z'

theorem startsUppercase_iff {t : Text} :
    Symbol.startsUppercase t = true ↔ IsCapitalised t := by
  rcases t with - | ⟨c, rest⟩
  · simp [Symbol.startsUppercase, IsCapitalised]
  · show decide (c.val ≥ 'A'.val ∧ c.val ≤ 'Z'.val) = true ↔ _
    simp [IsCapitalised, Char.le_def]

/-! ### Order of first occurrence -/

/-- The distinct texts of a class stand in the order in which they occur first
in the whole list. -/
theorem pairwise_idxOf_distinct (p : Text → Bool) (xs : List Text) :
    (distinct (xs.filter p)).Pairwise fun x y => xs.idxOf x < xs.idxOf y := by
  induction xs using List.reverseRecOn with
  | nil => exact List.Pairwise.nil
  | append_singleton xs z ih =>
    -- elements that occur before the last one keep their places
    have kept : (distinct (xs.filter p)).Pairwise fun x y =>
        (xs ++ [z]).idxOf x < (xs ++ [z]).idxOf y := by
      refine ih.imp_of_mem fun mx my lt => ?_
      have mem : ∀ {x}, x ∈ distinct (xs.filter p) → x ∈ xs :=
        fun m => (List.mem_filter.1 (mem_distinct.1 m)).1
      rwa [List.idxOf_append_of_mem (mem mx), List.idxOf_append_of_mem (mem my)]
    rw [List.filter_append]
    rcases hz : p z with - | -
    · simpa [hz] using kept
    · rw [List.filter_singleton, hz, cond_true, distinct_append_singleton]
      split
      · exact kept
      · rename_i new
        refine List.pairwise_append.2 ⟨kept, List.pairwise_singleton _ _, ?_⟩
        intro x mx y my
        obtain rfl := List.mem_singleton.1 my
        obtain ⟨before, hx⟩ := List.mem_filter.1 (mem_distinct.1 mx)
        have last : y ∉ xs := fun m => new (List.mem_filter.2 ⟨m, hz⟩)
        rw [List.idxOf_append_of_mem before, List.idxOf_append_of_notMem last]
        exact Nat.lt_add_right _ (List.idxOf_lt_length_of_mem before)

namespace Normalized

/-! ### One child after the other -/

/-- The normal form of a tag without children. -/
def initial (tag : Text) : Normalized := ⟨⟨tag, []⟩, []⟩

/-- Takes in the next child.  Its symbol goes to the end of the expansion; if
it is a word with siblings, the production of its preterminal goes to the end
of the others, unless one of them is equal. -/
def takeIn (siblings : Bool) (n : Normalized) (child : Text) : Normalized :=
  let p := Production.preterminalFor child
  { rule := { n.rule with rhs := n.rule.rhs ++ [childSymbol siblings child] }
    preterminals :=
      if siblings && !Symbol.startsUppercase child &&
          !(n.preterminals.any fun q => q.plain == p.plain) then
        n.preterminals ++ [p]
      else n.preterminals }

theorem plain_preterminalFor_eq_iff {v w : Text} :
    (Production.preterminalFor v).plain = (Production.preterminalFor w).plain ↔
      v = w := by
  constructor
  · intro same
    simpa [Production.plain, Production.preterminalFor, Expansion.plain,
      Symbol.plain] using congrArg Production.rhs same
  · rintro rfl
    rfl

/-- The normal form of the children seen so far, given whether they have
siblings. -/
def ofSeen (siblings : Bool) (tag : Text) (seen : List Text) : Normalized :=
  { rule := ⟨tag, seen.map (childSymbol siblings)⟩
    preterminals :=
      (distinct (replacedWords siblings seen)).map
        Production.preterminalFor }

/-- **One child**: taking it in after others gives the normal form of them
and it. -/
theorem takeIn_ofSeen (siblings : Bool) (tag : Text) (seen : List Text)
    (child : Text) :
    takeIn siblings (ofSeen siblings tag seen) child =
      ofSeen siblings tag (seen ++ [child]) := by
  -- a child brings a production just if it is to be replaced
  have more : replacedWords siblings (seen ++ [child]) =
      replacedWords siblings seen ++
        if siblings && !Symbol.startsUppercase child then [child] else [] := by
    cases siblings <;> rcases upper : Symbol.startsUppercase child with - | - <;>
      simp [replacedWords, upper]
  have old : (((distinct (replacedWords siblings seen)).map
      Production.preterminalFor).any fun q =>
        q.plain == (Production.preterminalFor child).plain) =
      decide (child ∈ replacedWords siblings seen) := by
    rw [Bool.eq_iff_iff]
    simp [plain_preterminalFor_eq_iff]
  simp only [takeIn, ofSeen, old, List.map_append, List.map_cons,
    List.map_nil, Normalized.mk.injEq, true_and]
  rw [more]
  rcases replaced : siblings && !Symbol.startsUppercase child with - | -
  · simp
  · simp only [Bool.true_and, if_true]
    rw [distinct_append_singleton]
    by_cases before : child ∈ replacedWords siblings seen
    · simp [before]
    · simp [before]

/-- **All children**: the normal form is what taking them in one by one
makes. -/
theorem ofChildren_eq_foldl (tag : Text) (children : List Text) :
    ofChildren tag children =
      children.foldl (takeIn (decide (1 < children.length)))
        (initial tag) := by
  have run (siblings : Bool) (seen : List Text) :
      seen.foldl (takeIn siblings) (initial tag) =
        ofSeen siblings tag seen := by
    induction seen using List.reverseRecOn with
    | nil => cases siblings <;> rfl
    | append_singleton seen child ih =>
      rw [List.foldl_append, ih]
      exact takeIn_ofSeen siblings tag seen child
  exact (run _ children).symm

/-! ### Symbols and words -/

theorem childSymbol_of_isCapitalised {child : Text} (siblings : Bool)
    (h : IsCapitalised child) :
    childSymbol siblings child = .nonterminal child := by
  simp [childSymbol, Symbol.ofListing, startsUppercase_iff.2 h]

theorem childSymbol_of_not_isCapitalised {child : Text} (siblings : Bool)
    (h : ¬ IsCapitalised child) :
    childSymbol siblings child =
      if siblings then
        .preterminal (Symbol.preterminalMark ++ Text.upper child)
      else .terminal child := by
  simp [childSymbol, Symbol.ofListing, mt startsUppercase_iff.1 h,
    Symbol.preterminalFor]

end Normalized

/-! ### Lines in conflict with themselves -/

/-- The only expansion of a block, up to its plain form. -/
theorem Block.eq_singleton_of_holdsOnly {b : Block} {e : Expansion}
    (h : b.holdsOnly e = true) :
    ∃ f, b.expansions = [f] ∧ f.plain = e.plain := by
  rw [holdsOnly, Bool.and_eq_true, beq_iff_eq, holds_iff] at h
  obtain ⟨one, f, m, same⟩ := h
  obtain ⟨g, single⟩ := List.length_eq_one_iff.1 one
  rw [single, List.mem_singleton] at m
  exact ⟨g, single, m ▸ same⟩

namespace RuleTable

variable {t t' : RuleTable} {p q : Production} {ps : List Production}

/-- A preterminal that was registered has just the expansion it was
registered with. -/
theorem holdsOnly_of_insertPreterminal {isNew : Bool}
    (h : t.insertPreterminal p = .ok (t', isNew)) :
    ∃ b, t'.find? p.lhs = some b ∧ b.holdsOnly p.rhs = true := by
  have after := find?_insertPreterminal h p.lhs
  rw [insertPreterminal] at h
  rcases found : t.find? p.lhs with - | b
  · refine ⟨⟨p.lhs, [p.rhs], true⟩, ?_, by simp [Block.holdsOnly, Block.holds]⟩
    rw [after, found]
    simp [blockAfter]
  · rw [found] at h
    simp only at h
    split at h
    · rename_i only
      rw [found] at after
      exact ⟨_, after, only⟩
    · cases h

/-- After a run every preterminal of the run has just the expansion it was
registered with, since later ones leave expansions alone. -/
theorem Registers.holdsOnly (h : t.Registers ps t') (m : p ∈ ps) :
    ∃ b, t'.find? p.lhs = some b ∧ b.holdsOnly p.rhs = true := by
  induction h with
  | nil => cases m
  | cons step run ih =>
    rcases List.mem_cons.1 m with rfl | m
    · obtain ⟨b, found, only⟩ := holdsOnly_of_insertPreterminal step
      have after := run.find?_eq p.lhs
      rw [found] at after
      exact ⟨_, after, only⟩
    · exact ih m

/-- Preterminals of one name in a run that gets through are equal. -/
theorem Registers.plain_eq (h : t.Registers ps t') (mp : p ∈ ps)
    (mq : q ∈ ps) (lhs : p.lhs = q.lhs) : p.rhs.plain = q.rhs.plain := by
  obtain ⟨b, found, onlyP⟩ := h.holdsOnly mp
  obtain ⟨b', found', onlyQ⟩ := h.holdsOnly mq
  obtain rfl : b = b' := by
    rw [lhs, found'] at found
    exact (Option.some.inj found).symm
  obtain ⟨e, single, eq⟩ := Block.eq_singleton_of_holdsOnly onlyP
  obtain ⟨f, single', eq'⟩ := Block.eq_singleton_of_holdsOnly onlyQ
  obtain rfl : e = f := by simpa using single.symm.trans single'
  rw [← eq, ← eq']

end RuleTable

/-- A line that asks for two productions of one preterminal is in conflict,
whatever the table holds. -/
theorem Converter.exists_conflict_of_collision {line : Normalized}
    {p q : Production} (mp : p ∈ line.preterminals)
    (mq : q ∈ line.preterminals) (lhs : p.lhs = q.lhs)
    (ne : p.rhs.plain ≠ q.rhs.plain) (c : Converter) (lineNo : Nat) :
    ∃ conflict, (c.add lineNo line).1 = some conflict := by
  obtain ⟨done, rest, split, registers, outcome⟩ :=
    c.register_spec lineNo line.preterminals
  rcases outcome with ⟨-, rfl⟩ | ⟨conflict, -, -, failed, -⟩
  · -- all preterminals went through, so the two are equal
    rw [List.append_nil] at split
    rw [split] at mp mq
    exact absurd (registers.plain_eq mp mq lhs) ne
  · refine ⟨conflict, ?_⟩
    rw [add]
    rcases run : c.register lineNo line.preterminals with ⟨- | other, d⟩
    · rw [run] at failed
      cases failed
    · rwa [run] at failed

/-! ### The normal form -/

/-- What the normal form of a tag and children is. -/
structure IsNormalForm (tag : Text) (children : List Text)
    (n : Normalized) : Prop where
  lhs_eq : n.rule.lhs = tag
  /-- There is one symbol for each child. -/
  length_eq : n.rule.rhs.length = children.length
  /-- A child with a capital letter stays as it is. -/
  capitalised : ∀ (i : Nat) (child : Text), children[i]? = some child →
    IsCapitalised child →
    n.rule.rhs[i]? = some (Symbol.nonterminal child)
  /-- A word without siblings stays as it is. -/
  lone : ∀ child : Text, children = [child] → ¬ IsCapitalised child →
    n.rule.rhs = [.terminal child]
  /-- A word with siblings is replaced by its preterminal. -/
  replaced : ∀ (i : Nat) (child : Text), 2 ≤ children.length →
    children[i]? = some child →
    ¬ IsCapitalised child → n.rule.rhs[i]? = some
      (Symbol.preterminal (Symbol.preterminalMark ++ Text.upper child))
  homogeneous : n.rule.rhs.isHomogeneous = true
  /-- Without siblings there are no preterminals. -/
  preterminals_eq_nil : children.length < 2 → n.preterminals = []
  /-- Each distinct word with siblings has a preterminal, in the order in
  which they occur first. -/
  preterminals_eq : 2 ≤ children.length → ∃ words : List Text,
    n.preterminals = words.map (fun word =>
        ⟨Symbol.preterminalMark ++ Text.upper word, [.terminal word]⟩) ∧
      words.Nodup ∧
      (∀ word, word ∈ words ↔ word ∈ children ∧ ¬ IsCapitalised word) ∧
      words.Pairwise fun v w => children.idxOf v < children.idxOf w

open Normalized in
theorem isNormalForm_ofChildren (tag : Text) (children : List Text) :
    IsNormalForm tag children (ofChildren tag children) where
  lhs_eq := rfl
  length_eq := List.length_map _
  capitalised i child at_i upper := by
    show (children.map _)[i]? = _
    rw [List.getElem?_map, at_i, Option.map_some,
      childSymbol_of_isCapitalised _ upper]
  lone child only lower := by
    subst only
    show [childSymbol false child] = _
    rw [childSymbol_of_not_isCapitalised _ lower]
    rfl
  replaced i child siblings at_i lower := by
    show (children.map _)[i]? = _
    rw [List.getElem?_map, at_i, Option.map_some,
      childSymbol_of_not_isCapitalised _ lower]
    simp [Nat.lt_of_succ_le siblings]
  homogeneous := isHomogeneous_childSymbols children
  preterminals_eq_nil few := by
    have alone : ¬ 1 < children.length := by omega
    simp [ofChildren, replacedWords, alone, distinct]
  preterminals_eq siblings := by
    refine ⟨distinct (children.filter fun child =>
      !Symbol.startsUppercase child), ?_, nodup_distinct _, ?_,
      pairwise_idxOf_distinct _ children⟩
    · simp only [ofChildren, replacedWords, Nat.lt_of_succ_le siblings,
        decide_true, if_true]
      rfl
    · intro word
      simp [startsUppercase_iff, ← Bool.not_eq_true]

/-- Every word with siblings has its preterminal. -/
theorem IsNormalForm.mem_preterminals {tag : Text} {children : List Text}
    {n : Normalized} (form : IsNormalForm tag children n)
    (siblings : 2 ≤ children.length) {word : Text} (m : word ∈ children)
    (lower : ¬ IsCapitalised word) :
    ⟨Symbol.preterminalMark ++ Text.upper word, [.terminal word]⟩ ∈
      n.preterminals := by
  obtain ⟨words, eq, -, mem, -⟩ := form.preterminals_eq siblings
  rw [eq]
  exact List.mem_map.2 ⟨word, (mem word).2 ⟨m, lower⟩, rfl⟩

theorem two_le_length_of_ne {v w : Text} {children : List Text}
    (mv : v ∈ children) (mw : w ∈ children) (ne : v ≠ w) :
    2 ≤ children.length := by
  rcases children with - | ⟨child, - | ⟨other, others⟩⟩
  · cases mv
  · rw [List.mem_singleton] at mv mw
    exact absurd (mv.trans mw.symm) ne
  · simp

/-- **The normal form of a line**, whichever form the line has.  It can be
made child by child.  Two words that differ, but not in capitals, both have a
production for the one preterminal, so that adding the line to any table
makes a conflict. -/
theorem normalized_spec (line : Line) :
    IsNormalForm line.tag line.children line.normalized ∧
      line.normalized = line.children.foldl
        (Normalized.takeIn (decide (1 < line.children.length)))
        (Normalized.initial line.tag) ∧
      ∀ v ∈ line.children, ∀ w ∈ line.children,
        ¬ IsCapitalised v → ¬ IsCapitalised w → v ≠ w →
        Text.upper v = Text.upper w →
        (∀ word, word = v ∨ word = w →
          ⟨Symbol.preterminalMark ++ Text.upper v, [.terminal word]⟩ ∈
            line.normalized.preterminals) ∧
        ∀ (c : Converter) (lineNo : Nat),
          ∃ conflict, (c.add lineNo line.normalized).1 = some conflict := by
  have form : IsNormalForm line.tag line.children line.normalized :=
    isNormalForm_ofChildren line.tag line.children
  refine ⟨form, Normalized.ofChildren_eq_foldl _ _, ?_⟩
  intro v mv w mw lowerV lowerW ne same
  have siblings := two_le_length_of_ne mv mw ne
  have both : ∀ word, word = v ∨ word = w →
      ⟨Symbol.preterminalMark ++ Text.upper v, [.terminal word]⟩ ∈
        line.normalized.preterminals := by
    rintro word (rfl | rfl)
    · exact form.mem_preterminals siblings mv lowerV
    · rw [same]
      exact form.mem_preterminals siblings mw lowerW
  refine ⟨both, fun c lineNo => ?_⟩
  refine Converter.exists_conflict_of_collision (both v (.inl rfl))
    (both w (.inr rfl)) rfl ?_ c lineNo
  simpa [Expansion.plain, Symbol.plain] using ne

/-- Two words that both have the two letters of a third child for their
uppercase form, one of them twice. -/
theorem normalized_spec_sharp :
    let line : Line :=
      ⟨.plain, "X".toList, ["ß".toList, "SS".toList, "ss".toList, "ß".toList]⟩
    Symbol.preterminalMark ++ Text.upper "ß".toList = "P_SS".toList ∧
      line.normalized.preterminals =
        [⟨"P_SS".toList, [.terminal "ß".toList]⟩,
          ⟨"P_SS".toList, [.terminal "ss".toList]⟩] ∧
      ∀ c : Converter, ∃ conflict, (c.add 1 line.normalized).1 =
        some conflict := by
  intro line
  have lower {t : Text} (h : Symbol.startsUppercase t = false) :
      ¬ IsCapitalised t := fun upper => by
    rw [startsUppercase_iff.2 upper] at h
    cases h
  refine ⟨by decide +kernel, by decide +kernel, fun c => ?_⟩
  exact ((normalized_spec line).2.2 "ß".toList (by decide) "ss".toList
    (by decide) (lower (by decide)) (lower (by decide)) (by decide)
    (by decide +kernel)).2 c 1

end TreebankGrammar
