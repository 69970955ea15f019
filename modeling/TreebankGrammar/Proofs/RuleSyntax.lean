/-
TreebankGrammar/Proofs/RuleSyntax.lean

The lines that are rules.

A line of a rule file, without the blanks around it, is a tag, the children
and a numeral with a mark between them (`Layout`).  The reader takes all lines
of this form, and no others, provided that the number is not below zero.

Which number that is has a limit.  The reader of numbers does not read a large
power of ten to its end, so that a numeral of very many digits may be read as
another number than the nearest (`farLine`).  No line of fewer than 65000
characters is of this sort (`isShort_of_length_lt`).

Design.  Cutting a line at the first marks is one step, and making a rule of
the parts is another; each is described by an equivalence
(`parse_eq_ok_iff_ofParts`, `ofParts_eq_ok_iff`), and so are the two readers
of a part (`probability?_eq_ok_iff`, `expansion?_eq_ok_iff`).  How a line is
laid out has nothing to do with the value of numerals, and what a laid out
line gives (`Layout.Gives`) takes it as a parameter.

Main result: `parse_eq_ok_iff`.
-/
import TreebankGrammar.Proofs.NumeralValue
import TreebankGrammar.Proofs.Words

namespace TreebankGrammar

open Production (openMark)

/-! ### Marks -/

theorem not_overlaps_openMark : ¬ Text.Overlaps openMark := by decide

theorem not_overlaps_closeMark : ¬ Text.Overlaps closeMark := by decide

/-! ### Children -/

theorem Symbol.isTerminal_ofRuleFile {token : Text} :
    (ofRuleFile token).isTerminal = true ↔
      token.head? = some terminalMark := by
  rcases token with - | ⟨c, word⟩
  · simp [ofRuleFile, isTerminal]
  · by_cases mark : c = terminalMark
    · simp [ofRuleFile, isTerminal, mark]
    · simp only [ofRuleFile, List.head?_cons, Option.some.injEq, mark,
        if_false, iff_false, Bool.not_eq_true]
      split <;> rfl

namespace Expansion

theorem isHomogeneous_cons_iff {s : Symbol} {e : Expansion} :
    isHomogeneous (s :: e) = true ↔
      e = [] ∨ ∀ t ∈ s :: e, t.isTerminal = false := by
  cases e with
  | nil =>
    cases one : s.isTerminal <;>
      simp [isHomogeneous, isNonlexical, Symbol.isNonterminal, one]
  | cons t e => simp [isHomogeneous, isNonlexical, Symbol.isNonterminal]

/-- Tokens make a homogeneous expansion if none has the mark of terminals, or
if there is only one. -/
theorem isHomogeneous_map_ofRuleFile {tokens : List Text} (ne : tokens ≠ []) :
    isHomogeneous (tokens.map Symbol.ofRuleFile) = true ↔
      (∀ t ∈ tokens, t.head? ≠ some Symbol.terminalMark) ∨
        tokens.length = 1 := by
  have plain (t : Text) : (Symbol.ofRuleFile t).isTerminal = false ↔
      t.head? ≠ some Symbol.terminalMark := by
    rw [← Bool.not_eq_true, Symbol.isTerminal_ofRuleFile]
  obtain ⟨t, ts, rfl⟩ := List.exists_cons_of_ne_nil ne
  rw [List.map_cons, isHomogeneous_cons_iff, or_comm, List.map_eq_nil_iff,
    List.length_cons, Nat.succ_inj, List.length_eq_zero_iff,
    ← List.map_cons, List.forall_mem_map]
  simp only [plain]

end Expansion

namespace WeightedRule

/-- The reader of children takes texts with words, if these do not mix
terminals with others. -/
theorem expansion?_eq_ok_iff {text : Text} {e : Expansion} :
    expansion? text = .ok e ↔
      Text.words text ≠ [] ∧
        ((∀ w ∈ Text.words text, w.head? ≠ some Symbol.terminalMark) ∨
          (Text.words text).length = 1) ∧
        e = (Text.words text).map Symbol.ofRuleFile := by
  rw [expansion?]
  by_cases none : Text.words text = []
  · simp [none]
  · have some : ((Text.words text).map Symbol.ofRuleFile).isEmpty = false := by
      simpa using none
    rw [← Expansion.isHomogeneous_map_ofRuleFile none]
    simp only [some, Bool.false_eq_true, if_false, ne_eq, none,
      not_false_eq_true, true_and]
    split
    · rename_i homogeneous
      simp only [Except.ok.injEq, homogeneous, true_and]
      exact eq_comm
    · rename_i mixed
      simp [mixed]

/-! ### Probabilities -/

/-- The reader of probabilities takes numerals, if the nearest number is not
below zero. -/
theorem probability?_eq_ok_iff {text : Text} {p : Binary64} :
    probability? text = .ok p ↔
      ∃ number : Numeral.Parts, number.Spells text ∧
        p.IsNearest number.negative number.decimalRead.value ∧
        p.lt Binary64.zero = false := by
  constructor
  · intro h
    rw [probability?] at h
    split at h
    · cases h
    · rename_i n read
      split at h
      · cases h
      · rename_i notBelow
        obtain rfl := Except.ok.inj h
        split at read
        · obtain ⟨number, spells, rfl⟩ := Numeral.parse?_eq_some_iff.1 read
          exact ⟨number, spells, Numeral.isNearest_value _,
            Bool.eq_false_of_not_eq_true notBelow⟩
        · cases read
  · rintro ⟨number, spells, nearest, notBelow⟩
    have read := Numeral.parse?_eq_some_iff.2 ⟨number, spells, rfl⟩
    -- the value that is read is the only number nearest to the decimal
    have value := nearest.unique (Numeral.isNearest_value
      ⟨number.negative, number.decimalRead⟩)
    subst value
    rw [probability?, if_pos spells.looksNumeric, read]
    simp only [notBelow, Bool.false_eq_true, if_false]

end WeightedRule

/-- A number with a minus sign that is not below zero is zero. -/
theorem Binary64.eq_zero_of_not_lt {rank : Nat}
    (h : (ofRank true rank).lt zero = false) :
    ofRank true rank = ofRank true 0 := by
  rcases Nat.eq_zero_or_pos rank with rfl | pos
  · rfl
  · have place : ∃ n : Nat, 0 < n ∧
        (ofRank true rank).place? = some (-(n : Int)) := by
      rw [ofRank]
      split
      · exact ⟨rank, pos, rfl⟩
      · exact ⟨infinityRank, infinityRank_pos, rfl⟩
    obtain ⟨n, pos, place⟩ := place
    rw [lt, place, place?_zero] at h
    simp only [decide_eq_false_iff_not] at h
    omega

/-! ### Lines -/

namespace WeightedRule

/-- A rule is made of parts if the tag is not empty and the others can be
read. -/
theorem ofParts_eq_ok_iff {tag children text : Text} {rule : WeightedRule} :
    ofParts tag children text = .ok rule ↔
      tag ≠ [] ∧ probability? text = .ok rule.probability ∧
        rule.production.lhs = tag ∧
        expansion? children = .ok rule.production.rhs := by
  obtain ⟨⟨lhs, rhs⟩, p⟩ := rule
  rw [ofParts]
  rcases tag with - | ⟨c, tag⟩
  · simp
  · rcases probability? text with fault | q
    · simp
    · rcases expansion? children with fault | e
      · simp
      · simp [eq_comm, and_comm]

/-- A line is cut at the first mark of either kind. -/
theorem breakOn_of_parts {line tag children text : Text}
    (eq : Text.trim line = tag ++ openMark ++ children ++ closeMark ++ text)
    (apart : ¬ openMark <:+: tag) (inside : ¬ closeMark <:+: children) :
    Text.breakOn openMark (Text.trim line) =
        some (tag, children ++ closeMark ++ text) ∧
      Text.breakOn closeMark (children ++ closeMark ++ text) =
        some (children, text) := by
  have first := Text.breakOn_append (by decide) not_overlaps_openMark apart
    (children ++ closeMark ++ text)
  simp only [← List.append_assoc, ← eq] at first
  exact ⟨by simpa only [← List.append_assoc] using first,
    Text.breakOn_append (by decide) not_overlaps_closeMark inside text⟩

theorem parse_of_parts {line tag children text : Text}
    (eq : Text.trim line = tag ++ openMark ++ children ++ closeMark ++ text)
    (apart : ¬ openMark <:+: tag) (inside : ¬ closeMark <:+: children) :
    parse line = ofParts tag children text := by
  obtain ⟨first, second⟩ := breakOn_of_parts eq apart inside
  rw [parse, first]
  simp only [second]

/-- Reading a line is cutting it and making a rule of its parts. -/
theorem parse_eq_ok_iff_ofParts {line : Text} {rule : WeightedRule} :
    parse line = .ok rule ↔
      ∃ tag children text,
        Text.trim line =
            tag ++ openMark ++ children ++ closeMark ++ text ∧
          ¬ openMark <:+: tag ∧ ¬ closeMark <:+: children ∧
          ofParts tag children text = .ok rule := by
  constructor
  · intro h
    rw [parse] at h
    split at h
    · cases h
    · rename_i tag rest cut
      obtain ⟨eq, apart⟩ := Text.breakOn_eq_some (by decide) cut
      split at h
      · cases h
      · rename_i children text cut'
        obtain ⟨rfl, inside⟩ := Text.breakOn_eq_some (by decide) cut'
        exact ⟨tag, children, text, by simp [eq], apart, inside, h⟩
  · rintro ⟨tag, children, text, eq, apart, inside, h⟩
    rw [parse_of_parts eq apart inside, h]

/-! ### The format -/

/-- A line laid out as a rule: without the blanks around it, it is a tag, the
children and a numeral with the marks between them.  The tag is not empty and
has no mark of the first kind, the children have none of the second kind;
there are children, and either none of them has the mark of terminals or
there is only one. -/
structure Layout (line : Text) where
  tag : Text
  children : Text
  text : Text
  number : Numeral.Parts
  trim_eq : Text.trim line =
    tag ++ openMark ++ children ++ closeMark ++ text
  tag_ne_nil : tag ≠ []
  apart : ¬ openMark <:+: tag
  inside : ¬ closeMark <:+: children
  words_ne_nil : Text.words children ≠ []
  kinds : (∀ w ∈ Text.words children, w.head? ≠ some Symbol.terminalMark) ∨
    (Text.words children).length = 1
  spells : number.Spells text

namespace Layout

variable {line : Text} {rule : WeightedRule}

/-- The production of a line: its tag with its children in order. -/
def production (l : Layout line) : Production :=
  ⟨l.tag, (Text.words l.children).map Symbol.ofRuleFile⟩

/-- Whether a rule is that of a line, given the decimals that numerals stand
for: it has the production of the line and the number nearest to its numeral,
and that number is not below zero. -/
def Gives (l : Layout line) (decimalOf : Numeral.Parts → Decimal)
    (rule : WeightedRule) : Prop :=
  rule.production = l.production ∧
    rule.probability.IsNearest l.number.negative
      (decimalOf l.number).value ∧
    rule.probability.lt Binary64.zero = false

/-- Whether the numeral of a line has fewer than 65000 characters, or a power
of ten between -655360 and 655360. -/
def IsShort (l : Layout line) : Prop :=
  l.text.length < 65000 ∨
    (Numeral.Parts.powerOf Numeral.digitsValue l.number.power).natAbs < 655360

/-- A line is laid out in one way only. -/
theorem unique (l l' : Layout line) : l = l' := by
  obtain ⟨first, second⟩ := breakOn_of_parts l.trim_eq l.apart l.inside
  obtain ⟨first', second'⟩ := breakOn_of_parts l'.trim_eq l'.apart l'.inside
  obtain ⟨tags, rests⟩ :=
    Prod.mk.inj (Option.some.inj (first.symm.trans first'))
  rw [rests] at second
  obtain ⟨children, texts⟩ :=
    Prod.mk.inj (Option.some.inj (second.symm.trans second'))
  have numbers := l.spells.unique (texts ▸ l'.spells)
  cases l
  cases l'
  simp only at tags children texts numbers
  subst tags children texts numbers
  rfl

/-- Lines of fewer than 65000 characters have no longer numerals. -/
theorem isShort_of_length_lt (h : line.length < 65000) (l : Layout line) :
    l.IsShort := by
  have trimmed := Text.length_trim_le line
  rw [l.trim_eq, List.length_append] at trimmed
  exact .inl (by omega)

/-- For a short numeral it does not matter whether its power of ten is read to
its end. -/
theorem IsShort.gives_iff {l : Layout line} (short : l.IsShort) :
    l.Gives Numeral.Parts.decimalRead rule ↔
      l.Gives Numeral.Parts.decimal rule := by
  refine and_congr_right fun _ => and_congr_left fun _ => ?_
  constructor
  · exact l.spells.isNearest_decimal short
  · intro nearest
    -- the number that is read is nearest to both decimals
    have read := Numeral.isNearest_value
      ⟨l.number.negative, l.number.decimalRead⟩
    rwa [nearest.unique (l.spells.isNearest_decimal short read)]

/-- What is not below zero and has a minus sign is zero. -/
theorem Gives.probability {decimalOf : Numeral.Parts → Decimal}
    {l : Layout line} (h : l.Gives decimalOf rule) :
    rule.probability ≠ .nan ∧
      (l.number.negative = true → rule.probability = .ofRank true 0) := by
  obtain ⟨-, ⟨rank, value, -⟩, notBelow⟩ := h
  constructor
  · rw [value, Binary64.ofRank]
    split <;> exact Binary64.noConfusion
  · intro minus
    rw [value, minus] at notBelow ⊢
    exact Binary64.eq_zero_of_not_lt notBelow

end Layout

/-- Reading a line is laying it out, its power of ten being read as far as the
reader of numbers does. -/
theorem parse_eq_ok_iff_layout {line : Text} {rule : WeightedRule} :
    parse line = .ok rule ↔
      ∃ l : Layout line, l.Gives Numeral.Parts.decimalRead rule := by
  constructor
  · intro h
    obtain ⟨tag, children, text, eq, apart, inside, made⟩ :=
      parse_eq_ok_iff_ofParts.1 h
    obtain ⟨ne, read, lhs, rhs⟩ := ofParts_eq_ok_iff.1 made
    obtain ⟨number, spells, nearest, notBelow⟩ := probability?_eq_ok_iff.1 read
    obtain ⟨some, kinds, rhs⟩ := expansion?_eq_ok_iff.1 rhs
    exact ⟨⟨tag, children, text, number, eq, ne, apart, inside, some, kinds,
      spells⟩, congrArg₂ Production.mk lhs rhs, nearest, notBelow⟩
  · rintro ⟨l, production, nearest, notBelow⟩
    rw [parse_of_parts l.trim_eq l.apart l.inside, ofParts_eq_ok_iff,
      probability?_eq_ok_iff, expansion?_eq_ok_iff, production]
    exact ⟨l.tag_ne_nil, ⟨l.number, l.spells, nearest, notBelow⟩, rfl,
      l.words_ne_nil, l.kinds, rfl⟩

/-- **The format of a rule.**  A line is read just if it is laid out as a rule
and the number nearest to its numeral is not below zero.  The rule has the
tag, the children in order, and this number, which is not "not a number", and
with a minus sign it is zero.

The numeral stands for the decimal that the reader of numbers finds, and this
one does not read a large power of ten to its end (`powerLimit`).  For lines
whose numeral is short, the decimal may as well be that which is written. -/
theorem parse_eq_ok_iff (line : Text) (rule : WeightedRule) :
    (parse line = .ok rule ↔
      ∃ l : Layout line, l.Gives Numeral.Parts.decimalRead rule) ∧
    ((∀ l : Layout line, l.IsShort) →
      (parse line = .ok rule ↔
        ∃ l : Layout line, l.Gives Numeral.Parts.decimal rule)) ∧
    (parse line = .ok rule → rule.probability ≠ .nan ∧
      rule.probability.lt Binary64.zero = false ∧
      ∀ l : Layout line, l.number.negative = true →
        rule.probability = .ofRank true 0) := by
  refine ⟨parse_eq_ok_iff_layout, fun short => ?_, fun read => ?_⟩
  · rw [parse_eq_ok_iff_layout]
    exact exists_congr fun l => (short l).gives_iff
  · obtain ⟨l, gives⟩ := parse_eq_ok_iff_layout.1 read
    refine ⟨gives.probability.1, gives.2.2, fun l' => ?_⟩
    rw [l'.unique l]
    exact gives.probability.2

/-- A line with blanks of several sorts around it and between its children,
whose number is below zero but nearest to zero. -/
theorem parse_eq_ok_iff_minus :
    let line := "\t S->[P_A  B\t] : -1e-400\n".toList
    let rule : WeightedRule := ⟨⟨"S".toList, [.preterminal "P_A".toList,
      .nonterminal "B".toList]⟩, .ofRank true 0⟩
    parse line = .ok rule ∧
      ∃ l : Layout line, l.Gives Numeral.Parts.decimal rule := by
  intro line rule
  have read : parse line = .ok rule := by decide +kernel
  have short : ∀ l : Layout line, l.IsShort :=
    Layout.isShort_of_length_lt (by decide)
  exact ⟨read, ((parse_eq_ok_iff line rule).2.1 short).1 read⟩

/-! ### Powers of ten that are not read to their end -/

/-- A numeral with a minus sign that has many zeros before its only other
digit, and a power of ten that makes up for them. -/
def farNumeral (zeros : Nat) : Numeral.Parts where
  negative := true
  whole := ['0']
  fraction := List.replicate zeros '0' ++ ['1']
  power := some (false, "655360".toList)

/-- The text of this numeral. -/
def farText (zeros : Nat) : Text :=
  "-0.".toList ++ List.replicate zeros '0' ++ "1e655360".toList

/-- A line with this numeral. -/
def farLine (zeros : Nat) : Text := "S->[A] : ".toList ++ farText zeros

variable {zeros : Nat}

theorem spells_farText (zeros : Nat) :
    (farNumeral zeros).Spells (farText zeros) := by
  have whole : Numeral.IsDigits ['0'] :=
    ⟨by decide, List.all_eq_true.1 (by decide)⟩
  have power : Numeral.IsDigits "655360".toList :=
    ⟨by decide, List.all_eq_true.1 (by decide)⟩
  have fraction : ∀ c ∈ List.replicate zeros '0' ++ ['1'],
      c.isDigit = true := by
    intro c m
    rcases List.mem_append.1 m with m | m
    · rw [List.eq_of_mem_replicate m]
      rfl
    · rw [List.mem_singleton.1 m]
      rfl
  refine ⟨['-'], ['0'] ++ '.' :: (List.replicate zeros '0' ++ ['1']),
    'e' :: ([] ++ "655360".toList), ?_, .minus, .point whole fraction,
    .marked (.inl rfl) .none power⟩
  simp [farText]

/-- Zeros at the front do not change the value of digits. -/
theorem digitsValue_zeros (zeros : Nat) (t : Text) :
    Numeral.digitsValue (List.replicate zeros '0' ++ t) =
      Numeral.digitsValue t := by
  induction zeros with
  | zero => rfl
  | succ zeros ih => exact ih

/-- The only digit of the numeral that is not zero stands after so many
others, however its power of ten is read. -/
theorem decimalOf_farNumeral (zeros : Nat) (valueOf : Text → Nat) :
    (farNumeral zeros).decimalOf valueOf =
      ⟨1, (valueOf "655360".toList : Int) - (zeros + 1 : Nat)⟩ := by
  have digits : Numeral.digitsValue
      (['0'] ++ (List.replicate zeros '0' ++ ['1'])) = 1 :=
    digitsValue_zeros (zeros + 1) ['1']
  have length : (List.replicate zeros '0' ++ ['1']).length = zeros + 1 := by
    rw [List.length_append, List.length_replicate, List.length_singleton]
  rw [Numeral.Parts.decimalOf, farNumeral]
  simp only [digits, length]
  rfl

/-- The line laid out. -/
def farLayout (zeros : Nat) : Layout (farLine zeros) where
  tag := ['S']
  children := ['A']
  text := farText zeros
  number := farNumeral zeros
  trim_eq := by
    have tag : Text.IsToken ['S'] :=
      ⟨by decide, List.forall_mem_singleton.2 (by decide)⟩
    have line : farLine zeros =
        ['S'] ++ (openMark ++ ['A'] ++ closeMark) ++ farText zeros := rfl
    have none : ∀ c ∈ ([] : Text), isBlank c = true := List.forall_mem_nil _
    have trimmed := Text.trim_append tag (spells_farText zeros).isToken
      (openMark ++ ['A'] ++ closeMark) none
    rw [List.append_nil, ← line] at trimmed
    rw [trimmed, line]
    simp only [List.append_assoc]
  tag_ne_nil := List.cons_ne_nil _ _
  apart := by decide
  inside := by decide
  words_ne_nil := by decide
  kinds := by decide
  spells := spells_farText zeros

/-- Of the power 655360 only 65536 is read, and with enough zeros the number
that is read is nearest to zero. -/
theorem parse_farLine (many : 65867 ≤ zeros) :
    parse (farLine zeros) =
      .ok ⟨⟨"S".toList, [.nonterminal "A".toList]⟩, .ofRank true 0⟩ := by
  have power : Numeral.powerValue "655360".toList = 65536 := by decide
  refine parse_eq_ok_iff_layout.2 ⟨farLayout zeros, rfl, ?_, by decide⟩
  show (Binary64.ofRank true 0).IsNearest true
    (farNumeral zeros).decimalRead.value
  rw [Numeral.Parts.decimalRead, decimalOf_farNumeral, power]
  refine Binary64.isNearest_zero (Decimal.value_nonneg _)
    (Decimal.small_of_exponent (show 1 < 10 ^ 1 by decide) ?_)
  show ((65536 : Nat) : Int) - (zeros + 1 : Nat) + (1 : Nat) ≤ -331
  omega

/-- The whole power makes up for the zeros, so that the number nearest to
what is written is below zero. -/
theorem not_gives_farLayout (few : zeros ≤ 655050) (rule : WeightedRule) :
    ¬ (farLayout zeros).Gives Numeral.Parts.decimal rule := by
  rintro ⟨-, nearest, notBelow⟩
  have power : Numeral.digitsValue "655360".toList = 655360 := by decide
  have large : 2 ^ 1024 ≤ (farNumeral zeros).decimal.value := by
    rw [Numeral.Parts.decimal, decimalOf_farNumeral, power]
    refine Decimal.large_of_exponent Nat.one_pos ?_
    show (309 : Int) ≤ (655360 : Nat) - (zeros + 1 : Nat)
    omega
  have infinite := nearest.unique (Binary64.isNearest_infinity large)
  have below : (Binary64.infinity true).lt Binary64.zero = true := by decide
  rw [infinite] at notBelow
  exact Bool.false_ne_true (notBelow.symm.trans below)

/-- A line that is read though the number nearest to its numeral is below
zero: the numeral is minus ten to the 589359, and is read as minus ten to the
-465. -/
theorem not_parse_eq_ok_iff :
    parse (farLine 66000) =
        .ok ⟨⟨"S".toList, [.nonterminal "A".toList]⟩, .ofRank true 0⟩ ∧
      ¬ ∃ (l : Layout (farLine 66000)) (rule : WeightedRule),
        l.Gives Numeral.Parts.decimal rule := by
  refine ⟨parse_farLine (by decide), ?_⟩
  rintro ⟨l, rule, gives⟩
  rw [l.unique (farLayout 66000)] at gives
  exact not_gives_farLayout (by decide) rule gives

end WeightedRule

end TreebankGrammar
