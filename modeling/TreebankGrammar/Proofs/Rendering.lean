/-
TreebankGrammar/Proofs/Rendering.lean

Rules that are read, written and read again.

A line may separate its children by any blanks.  The rule that is read from
it is written with single spaces, so that the line which is written may
differ from the one that was read, and the mark after the children may occur
in it too early.  This happens just if a child that ends with `]` stands
before a child `:` and another one (`closeMark_infix_join_iff`).  The line is
then cut there, and what stands after the cut is no number.  Every other rule
is read back as it is.

Design.  That joined words contain the mark is a fact about words: the mark
has two blanks, so it begins at the end of one word, has one to itself, and
ends before another.

Main result: `parse_written`.
-/
import Mathlib.Data.List.DropRight
import TreebankGrammar.Proofs.RuleSyntax

namespace TreebankGrammar

open Text (IsToken)
open Production (openMark)

namespace Text

/-! ### Last characters -/

/-- A text that does not end with a blank has a last word, which ends as the
text does. -/
theorem words_concat {c : Char} (h : isBlank c = false) (t : Text) :
    ∃ before w, words (t ++ [c]) = before ++ [w ++ [c]] := by
  induction t with
  | nil =>
    have token : IsToken [c] := ⟨List.cons_ne_nil _ _, by simpa using h⟩
    exact ⟨[], [], token.words_eq⟩
  | cons d t ih =>
    obtain ⟨before, w, eq⟩ := ih
    rcases blank : isBlank d with - | -
    · -- the character belongs to the first piece
      simp only [words] at eq ⊢
      rw [List.cons_append, cutAll_cons, blank]
      rcases first : (cutAll isBlank (t ++ [c])).1 with - | ⟨e, piece⟩
      · rw [first] at eq
        refine ⟨[d] :: before, w, ?_⟩
        simpa using eq
      · rw [first] at eq
        simp only [List.filter_cons, List.isEmpty_cons, Bool.not_false,
          if_true, Bool.false_eq_true, if_false] at eq ⊢
        rcases before with - | ⟨word, before⟩
        · obtain ⟨same, none⟩ := List.cons.inj eq
          exact ⟨[], d :: w, by rw [none, same]; rfl⟩
        · obtain ⟨rfl, same⟩ := List.cons.inj eq
          exact ⟨(d :: e :: piece) :: before, w, by rw [same]; rfl⟩
    · refine ⟨before, w, ?_⟩
      have cut := words_append_blank blank [] (t ++ [c])
      rw [List.nil_append] at cut
      rw [List.cons_append, cut, eq]
      rfl

/-- Joined words do not end with a blank. -/
theorem exists_join_concat {ts : List Text} (ne : ts ≠ [])
    (h : ∀ t ∈ ts, IsToken t) :
    ∃ t c, join [' '] ts = t ++ [c] ∧ isBlank c = false := by
  induction ts with
  | nil => exact absurd rfl ne
  | cons t ts ih =>
    rcases ts with - | ⟨u, ts⟩
    · have token := h t List.mem_cons_self
      rcases List.eq_nil_or_concat t with none | ⟨t', c, rfl⟩
      · exact absurd none token.ne_nil
      · exact ⟨t', c, by simp [join, List.intercalate],
          token.not_blank c (by simp)⟩
    · obtain ⟨rest, c, eq, last⟩ := ih (List.cons_ne_nil u ts)
        fun v m => h v (List.mem_cons_of_mem t m)
      exact ⟨t ++ ([' '] ++ rest), c, by simp [join_cons_cons, eq], last⟩

/-- A trimmed text does not begin with a blank. -/
theorem not_isBlank_of_trim_eq {t rest : Text} {c : Char}
    (h : trim t = c :: rest) : isBlank c = false := by
  have front : trim t <+: t.dropWhile isBlank := List.rdropWhile_prefix _ _
  obtain ⟨after, eq⟩ := front
  rw [h, List.cons_append] at eq
  have head := List.head?_dropWhile_not isBlank t
  rwa [← eq] at head

end Text

/-! ### The mark among words -/

/-- **The mark among words.**  Words joined with spaces contain the mark after
the children just if one of them that ends with `]` stands before `:` and
another one. -/
theorem closeMark_infix_join_iff {ts : List Text} (h : ∀ t ∈ ts, IsToken t) :
    closeMark <:+: Text.join [' '] ts ↔
      ∃ before w u after,
        ts = before ++ (w ++ [']']) :: [':'] :: u :: after := by
  constructor
  · rintro ⟨front, rear, eq⟩
    have ne : ts ≠ [] := by
      rintro rfl
      simp [closeMark, Text.join] at eq
    obtain ⟨t, c, last, stays⟩ := Text.exists_join_concat ne h
    -- so there is something after the mark, and it ends with a word
    have rear_eq : ∃ rear', rear = rear' ++ [c] := by
      rcases List.eq_nil_or_concat rear with rfl | ⟨rear', d, rfl⟩
      · have ends := eq.trans last
        rw [List.append_nil, closeMark] at ends
        have same : ' ' = c := by
          simpa using congrArg List.getLast? ends
        rw [← same] at stays
        exact absurd stays (by decide)
      · have same : d = c := by
          simpa using congrArg List.getLast? (eq.trans last)
        exact ⟨rear', by rw [same]; simp⟩
    obtain ⟨rear', rfl⟩ := rear_eq
    obtain ⟨before, w, first⟩ := Text.words_concat
      (by decide : isBlank ']' = false) front
    obtain ⟨others, u, second⟩ := Text.words_concat stays rear'
    have colon : IsToken [':'] :=
      ⟨List.cons_ne_nil _ _, List.forall_mem_singleton.2 (by decide)⟩
    have cut : Text.join [' '] ts =
        (front ++ [']']) ++ ' ' :: ([':'] ++ ' ' :: (rear' ++ [c])) := by
      rw [← eq]
      simp [closeMark]
    -- the words of the cut text are the given ones
    have words := Text.words_join h
    rw [cut, Text.words_append_blank (by decide), first,
      Text.words_append_blank (by decide), colon.words_eq, second] at words
    obtain ⟨v, after, split⟩ := List.exists_cons_of_ne_nil
      (List.append_ne_nil_of_right_ne_nil others
        (List.cons_ne_nil (u ++ [c]) []))
    refine ⟨before, w, v, after, ?_⟩
    rw [← words, split]
    simp
  · rintro ⟨before, w, u, after, rfl⟩
    clear h
    -- words in front only move the mark further back
    induction before with
    | nil =>
      refine ⟨w, Text.join [' '] (u :: after), ?_⟩
      rw [List.nil_append, Text.join_cons_cons, Text.join_cons_cons]
      simp [closeMark]
    | cons t before ih =>
      obtain ⟨v, rest, split⟩ := List.exists_cons_of_ne_nil
        (List.append_ne_nil_of_right_ne_nil before
          (List.cons_ne_nil (w ++ [']']) ([':'] :: u :: after)))
      rw [split] at ih
      rw [List.cons_append, split, Text.join_cons_cons]
      refine ih.trans ?_
      rw [← List.append_assoc]
      exact (List.suffix_append _ _).isInfix

namespace Expansion

/-- Whether a symbol that ends with `]` stands before a symbol `:` and another
one, so that the written form contains the mark after the children. -/
def MimicsMark (e : Expansion) : Prop :=
  ∃ before s t u after, e = before ++ s :: t :: u :: after ∧
    (∃ w, s.written = w ++ [']']) ∧ t.written = [':']

theorem closeMark_infix_written_iff {e : Expansion}
    (h : ∀ s ∈ e, IsToken s.written) :
    closeMark <:+: e.written ↔ e.MimicsMark := by
  rw [written, closeMark_infix_join_iff (List.forall_mem_map.2 h)]
  constructor
  · rintro ⟨before, w, u, after, eq⟩
    obtain ⟨front, rest, rfl, -, eq⟩ := List.map_eq_append_iff.1 eq
    obtain ⟨s, rest, rfl, ends, eq⟩ := List.map_eq_cons_iff.1 eq
    obtain ⟨t, rest, rfl, colon, eq⟩ := List.map_eq_cons_iff.1 eq
    obtain ⟨u, rest, rfl, -, -⟩ := List.map_eq_cons_iff.1 eq
    exact ⟨front, s, t, u, rest, rfl, ⟨w, ends⟩, colon⟩
  · rintro ⟨before, s, t, u, after, rfl, ⟨w, ends⟩, colon⟩
    refine ⟨before.map Symbol.written, w, u.written,
      after.map Symbol.written, ?_⟩
    rw [List.map_append, List.map_cons, List.map_cons, List.map_cons, ends,
      colon]

end Expansion

/-! ### Written rules -/

namespace WeightedRule

variable {line text blanks : Text} {rule : WeightedRule} {p : Binary64}

/-- What is known of a rule that was read: its tag begins with a character
and has no mark, and its symbols are those of some words. -/
theorem exists_words_of_parse (h : parse line = .ok rule) :
    (∃ c tag, rule.production.lhs = c :: tag ∧ isBlank c = false) ∧
      ¬ openMark <:+: rule.production.lhs ∧
      ∃ children, expansion? children = .ok rule.production.rhs := by
  obtain ⟨tag, children, text, eq, apart, -, made⟩ :=
    parse_eq_ok_iff_ofParts.1 h
  obtain ⟨ne, -, rfl, read⟩ := ofParts_eq_ok_iff.1 made
  refine ⟨?_, apart, children, read⟩
  obtain ⟨c, tag, tag_eq⟩ := List.exists_cons_of_ne_nil ne
  rw [tag_eq] at eq
  exact ⟨c, tag, tag_eq, Text.not_isBlank_of_trim_eq eq⟩

/-- An expansion that was read has tokens for symbols, and it is read again
from its written form. -/
theorem expansion?_written_of_ok {children : Text} {e : Expansion}
    (h : expansion? children = .ok e) :
    (∀ s ∈ e, IsToken s.written) ∧ expansion? e.written = .ok e := by
  obtain ⟨ne, kinds, rfl⟩ := expansion?_eq_ok_iff.1 h
  have tokens : ∀ w ∈ Text.words children, IsToken w :=
    fun w => Text.isToken_of_mem_words
  have same : Text.words
      (Expansion.written ((Text.words children).map Symbol.ofRuleFile)) =
        Text.words children := by
    rw [Expansion.written, List.map_map]
    simp only [Function.comp_def, Symbol.written_ofRuleFile, List.map_id']
    exact Text.words_join tokens
  constructor
  · intro s m
    obtain ⟨w, mw, rfl⟩ := List.mem_map.1 m
    rw [Symbol.written_ofRuleFile]
    exact tokens w mw
  · rw [expansion?_eq_ok_iff, same]
    exact ⟨ne, kinds, rfl⟩

/-- A text with any other character is not read as a probability. -/
theorem probability?_of_mem {c : Char} (m : c ∈ text)
    (h : isNumeralChar c = false) :
    probability? text = .error .notANumber := by
  have plain : looksNumeric text = false := by
    rw [looksNumeric, Bool.and_eq_false_iff]
    right
    rw [← Bool.not_eq_true, List.all_eq_true]
    intro all
    rw [all c m] at h
    cases h
  rw [probability?, if_neg (by simp [plain])]

/-- **Reading what was written.**  Let a rule be read from a line, and write
its production again with any text that is read as a probability.  If no
child that ends with `]` stands before a child `:` and another one, the line
is read, and gives the same production.  Otherwise it is not: the line is cut
between these children, and what comes after them is no number. -/
theorem parse_written (h : parse line = .ok rule)
    (hp : probability? text = .ok p) (hb : ∀ c ∈ blanks, isBlank c = true) :
    let again :=
      rule.production.written ++ [' ', ':', ' '] ++ text ++ blanks
    (¬ rule.production.rhs.MimicsMark →
        parse again = .ok ⟨rule.production, p⟩) ∧
      (rule.production.rhs.MimicsMark →
        parse again = .error .notANumber) := by
  intro again
  obtain ⟨⟨c, tag, tag_eq, stays⟩, apart, children, read⟩ :=
    exists_words_of_parse h
  obtain ⟨tokens, reread⟩ := expansion?_written_of_ok read
  obtain ⟨number, spells, -⟩ := probability?_eq_ok_iff.1 hp
  have ne : rule.production.lhs ≠ [] := by
    rw [tag_eq]
    exact List.cons_ne_nil c tag
  have trimmed : Text.trim again =
      rule.production.lhs ++ openMark ++ rule.production.rhs.written ++
        closeMark ++ text := by
    have first : IsToken [c] :=
      ⟨List.cons_ne_nil _ _, List.forall_mem_singleton.2 stays⟩
    have trim := Text.trim_append first spells.isToken
      (tag ++ openMark ++ rule.production.rhs.written ++ closeMark) hb
    simpa [again, Production.written, tag_eq, closeMark] using trim
  rw [← Expansion.closeMark_infix_written_iff tokens]
  constructor
  · intro inside
    rw [parse_of_parts trimmed apart inside, ofParts_eq_ok_iff]
    exact ⟨ne, hp, rfl, reread⟩
  · intro inside
    rcases cut : Text.breakOn closeMark rule.production.rhs.written with
      - | ⟨before, after⟩
    · exact absurd inside
        (Text.not_infix_of_breakOn_eq_none (by decide) cut)
    · -- the line is cut at the first mark among the children
      obtain ⟨eq, early⟩ := Text.breakOn_eq_some (by decide) cut
      have moved : Text.trim again = rule.production.lhs ++ openMark ++
          before ++ closeMark ++ (after ++ closeMark ++ text) := by
        rw [trimmed, eq]
        simp only [List.append_assoc]
      have wrong : probability? (after ++ closeMark ++ text) =
          .error .notANumber :=
        probability?_of_mem (c := ']') (by simp [closeMark]) (by decide)
      rw [parse_of_parts moved apart early, ofParts, tag_eq, wrong]
      rfl

/-- A rule with blanks of several sorts between its children, and one in its
tag, is read back. -/
theorem parse_written_blanks :
    parse " S ->[P_A\t  B] : .25 ".toList =
        .ok ⟨⟨"S ".toList, [.preterminal "P_A".toList,
          .nonterminal "B".toList]⟩, .ofBits 0x3FD0000000000000⟩ ∧
      probability? "1e0".toList = .ok .one ∧
      parse "S ->[P_A B] : 1e0\n".toList =
        .ok ⟨⟨"S ".toList, [.preterminal "P_A".toList,
          .nonterminal "B".toList]⟩, .one⟩ := by
  have read : parse " S ->[P_A\t  B] : .25 ".toList =
      .ok ⟨⟨"S ".toList, [.preterminal "P_A".toList,
        .nonterminal "B".toList]⟩, .ofBits 0x3FD0000000000000⟩ := by
    decide +kernel
  have number : probability? "1e0".toList = .ok .one := by decide +kernel
  have newline : ∀ c ∈ ['\n'], isBlank c = true :=
    List.forall_mem_singleton.2 (by decide)
  have few : ¬ Expansion.MimicsMark
      [.preterminal "P_A".toList, .nonterminal "B".toList] := by
    rintro ⟨before, s, t, u, after, eq, -⟩
    have length := congrArg List.length eq
    simp at length
    omega
  exact ⟨read, number, (parse_written read number newline).1 few⟩

/-- A rule that is read, but not read back: two spaces in front of its second
child keep the mark away from the children. -/
theorem not_parse_written :
    ¬ ∀ line text rule p, parse line = .ok rule →
      probability? text = .ok p →
      ∃ other, parse (rule.production.written ++ [' ', ':', ' '] ++ text) =
          .ok other ∧ other.production = rule.production := by
  intro always
  have read : parse "S->[A]  : B] : 1".toList =
      .ok ⟨⟨"S".toList, [.nonterminal "A]".toList, .nonterminal ":".toList,
        .nonterminal "B".toList]⟩, .one⟩ := by
    decide +kernel
  obtain ⟨other, accepted, -⟩ :=
    always _ "1".toList _ .one read (by decide +kernel)
  have refused : parse "S->[A] : B] : 1".toList = .error .notANumber := by
    decide +kernel
  have same := accepted.symm.trans refused
  cases same

end WeightedRule

end TreebankGrammar
