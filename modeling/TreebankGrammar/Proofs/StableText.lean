/-
TreebankGrammar/Proofs/StableText.lean

Written numbers keep their text.

A number is written as a decimal of seven digits, and this is read as the
number nearest to the decimal, which may be another one.  It is written as the
same decimal all the same (`Decimal.IsNearest.reread`), so nothing changes any
more however often a file is read and written (`scientific_reread`).

Design.  The number that is read is at least as near to the decimal as the
number that was written, so it has the same nearest decimal if decimals are as
dense on both sides.  They are not beside a power of ten, and there the
precision of numbers has to be counted.  It is enough from ten million units
of 2^-1074 up.  Below a million units, there are no two numbers close enough
to a power of ten on both sides.  Between them there is a single power of ten,
10^-317, and the number nearest to it lies above it.

Main results: `Decimal.IsNearest.reread` and `scientific_reread`.
-/
import TreebankGrammar.Proofs.Rereading
import TreebankGrammar.Proofs.ScientificForm

namespace TreebankGrammar

/-! ### Numbers beside a power of ten -/

/-- A quotient of ten million units or more is rounded by at most half a part
in ten million. -/
theorem two_mul_abs_magnitude_sub_le {num den : Nat} (pos : 0 < den)
    (large : (10 : ℚ) ^ 7 ≤ num / den) :
    2 * |(magnitude (nearestRank num den) : ℚ) - num / den| ≤
      num / den / 10 ^ 7 := by
  refine (abs_magnitude_nearestRank_sub_le num pos).1.trans ?_
  rcases Nat.eq_zero_or_pos (spacing num den) with zero | many
  · rw [zero, pow_zero, le_div_iff₀ (by positivity), one_mul]
    exact large
  · -- beyond the first two blocks a spacing is less than that
    have block : ((blockSize * 2 ^ spacing num den : Nat) : ℚ) ≤ num / den :=
      le_trans (by exact_mod_cast block_le_quotient many) Nat.cast_div_le
    rw [blockSize_eq] at block
    push_cast at block
    have step : (0 : ℚ) < 2 ^ spacing num den := by positivity
    rw [le_div_iff₀ (by positivity)]
    linarith

/-- There are hardly fewer than 2024023 units in 10^-317. -/
theorem unitsPerOne_bounds : 4048045 * tenTo 317 < 2 * unitsPerOne ∧
    unitsPerOne < 2024023 * tenTo 317 := by decide +kernel

/-- The decimal of the largest finite number does not lie above it. -/
theorem writtenDecimal_last :
    Binary64.writtenDecimal (infinityRank - 1) = ⟨1797693, 302⟩ ∧
      1797693 * tenTo 302 * unitsPerOne ≤ magnitude (infinityRank - 1) := by
  decide +kernel

-- powers of ten and numbers of units are not evaluated any more
attribute [local irreducible] tenTo unitsPerOne

/-- The same in the rationals. -/
theorem unitsPerOne_zpow_bounds :
    4048045 * (10 : ℚ) ^ (317 : ℤ) < 2 * unitsPerOne ∧
      (unitsPerOne : ℚ) < 2024023 * 10 ^ (317 : ℤ) := by
  have whole : (10 : ℚ) ^ (317 : ℤ) = tenTo 317 := by
    rw [tenTo_cast]
    exact zpow_natCast 10 317
  obtain ⟨low, high⟩ := unitsPerOne_bounds
  rw [whole]
  exact ⟨by exact_mod_cast low, by exact_mod_cast high⟩

namespace Decimal

variable {d : Decimal}

/-- The exponent of a decimal whose last digit counts between one and ten
units. -/
theorem exponent_eq_of_bounds (low : 1 ≤ d.lastUnit * unitsPerOne)
    (high : d.lastUnit * unitsPerOne < 10) : d.exponent = -323 := by
  obtain ⟨least, most⟩ := unitsPerOne_zpow_bounds
  have unit := d.lastUnit_pos
  have units := unitsPerOne_pos
  -- the last digit counts 10^-317 times another power of ten
  have split : d.lastUnit * 10 ^ (317 : ℤ) = 10 ^ (d.exponent + 317) :=
    (zpow_add₀ (by norm_num) _ _).symm
  refine le_antisymm (not_lt.1 fun above => ?_) (not_lt.1 fun below => ?_)
  · have large : (10 : ℚ) ^ (-5 : ℤ) ≤ 10 ^ (d.exponent + 317) :=
      zpow_le_zpow_right₀ (by norm_num) (by omega)
    have product := mul_lt_mul_of_pos_left least unit
    rw [mul_left_comm, split] at product
    norm_num at large
    linarith
  · have small : (10 : ℚ) ^ (d.exponent + 317) ≤ 10 ^ (-7 : ℤ) :=
      zpow_le_zpow_right₀ (by norm_num) (by omega)
    have product := mul_lt_mul_of_pos_left most unit
    rw [mul_left_comm, split] at product
    norm_num at small
    linarith

/-- The number nearest to 10^-317 lies above it. -/
theorem value_mul_lt_magnitude {b : Nat} (same : d = ⟨10 ^ 6, -323⟩)
    (nearest : IsNearestRank (d.value * unitsPerOne) b) :
    d.value * unitsPerOne < magnitude b := by
  obtain ⟨least, most⟩ := unitsPerOne_zpow_bounds
  have pos : (0 : ℚ) < 10 ^ (317 : ℤ) := by positivity
  have whole : d.value * 10 ^ (317 : ℤ) = 1 := by
    rw [same, Decimal.value, mul_assoc, ← zpow_add₀ (by norm_num)]
    norm_num
  have q_pos : 0 < d.value := pos_of_mul_pos_left (whole ▸ one_pos) pos.le
  have low : 4048045 < 2 * (d.value * unitsPerOne) := by
    have product := mul_lt_mul_of_pos_left least q_pos
    rw [mul_left_comm, whole] at product
    linarith
  have high : d.value * unitsPerOne < 2024023 := by
    have product := mul_lt_mul_of_pos_left most q_pos
    rw [mul_left_comm, whole] at product
    linarith
  have above : magnitude 2024023 = 2024023 := if_pos (by decide)
  -- a magnitude below it would be further away than the next one
  refine not_le.1 fun below => ?_
  have closer := nearest.le 2024023
  rw [above, abs_of_nonpos (by linarith), abs_of_nonneg (by
    push_cast
    linarith)] at closer
  have order : magnitude b < 2024023 := by
    exact_mod_cast below.trans_lt high
  have least' : (magnitude b : ℚ) + 1 ≤ 2024023 := by exact_mod_cast order
  push_cast at closer
  linarith

/-! ### Writing again what was read -/

variable {a b : Nat}

/-- The number nearest to a decimal of ten million units or more is off by at
most half a part in ten million. -/
theorem two_mul_abs_sub_le_of_large
    (rounded : IsNearestRank (d.value * unitsPerOne) b)
    (large : (10 : ℚ) ^ 7 ≤ d.value * unitsPerOne) :
    2 * |(magnitude b : ℚ) - d.value * unitsPerOne| ≤
      d.value * unitsPerOne / 10 ^ 7 := by
  obtain ⟨num, den, pos, rank, exact⟩ := d.exists_quotient
  rw [← exact] at large
  have near := two_mul_abs_magnitude_sub_le pos large
  rwa [← rank, d.isNearestRank_rank.unique rounded, exact] at near

/-- Two numbers on both sides of a power of ten are a unit apart, so the last
digit counts at least a unit if both have to do with this decimal. -/
theorem IsNearest.one_le_of_between
    (h : IsNearest 7 d (magnitude a / unitsPerOne))
    (below : (magnitude b : ℚ) < d.value * unitsPerOne)
    (other : d.value * unitsPerOne < magnitude a)
    (closer : d.value * unitsPerOne - magnitude b ≤
      magnitude a - d.value * unitsPerOne) :
    1 ≤ d.lastUnit * unitsPerOne := by
  have units := unitsPerOne_pos
  have near := mul_le_mul_of_nonneg_right h.two_mul_abs_sub_le units.le
  have distance : |d.value - magnitude a / unitsPerOne| * unitsPerOne =
      magnitude a - d.value * unitsPerOne := by
    rw [abs_of_nonpos, neg_mul, sub_mul, div_mul_cancel₀ _ units.ne', neg_sub]
    rw [sub_nonpos, le_div_iff₀ units]
    exact other.le
  rw [mul_assoc, distance] at near
  have order : magnitude b < magnitude a := by
    exact_mod_cast below.trans other
  have apart : (magnitude b : ℚ) + 1 ≤ magnitude a := by exact_mod_cast order
  linarith

/-- Below a power of ten the number that is read is close enough to it. -/
theorem IsNearest.reread_power (h : IsNearest 7 d (magnitude a / unitsPerOne))
    (rounded : IsNearestRank (d.value * unitsPerOne) b)
    (power : d.coefficient = 10 ^ 6) :
    d.value * unitsPerOne ≤ magnitude b ∨
      2 * (d.value * unitsPerOne - magnitude b) ≤
        d.lastUnit / 10 * unitsPerOne := by
  have closer := rounded.le a
  have units := unitsPerOne_pos
  have value : d.value * unitsPerOne = 10 ^ 6 * (d.lastUnit * unitsPerOne) := by
    rw [value_eq_mul_lastUnit, power, ← mul_assoc]
    norm_num
  rcases le_or_gt (d.value * unitsPerOne) (magnitude b : ℚ) with above | below
  · exact .inl above
  right
  rw [abs_of_nonpos (by linarith), neg_sub] at closer
  rcases le_or_gt (magnitude a : ℚ) (d.value * unitsPerOne) with same | other
  · -- both numbers are below the power of ten
    have near := mul_le_mul_of_nonneg_right (h.two_mul_sub_le power) units.le
    rw [mul_assoc, sub_mul, div_mul_cancel₀ _ units.ne'] at near
    rw [abs_of_nonpos (by linarith)] at closer
    linarith
  rw [abs_of_pos (by linarith)] at closer
  rcases le_or_gt ((10 : ℚ) ^ 7) (d.value * unitsPerOne) with large | small
  · have near := two_mul_abs_sub_le_of_large rounded large
    rw [abs_of_neg (sub_neg.2 below)] at near
    linarith
  · -- this leaves one power of ten, and the number that is read is above it
    exfalso
    have exponent := exponent_eq_of_bounds
      (h.one_le_of_between below other closer) (by linarith)
    have same : d = ⟨10 ^ 6, -323⟩ := by
      rw [Decimal.mk.injEq, ← power, ← exponent]
      exact ⟨rfl, rfl⟩
    exact (value_mul_lt_magnitude same rounded).not_gt below

/-- **What was read is written as before.**  The decimal that is nearest to a
number is nearest to the number nearest to the decimal. -/
theorem IsNearest.reread (h : IsNearest 7 d (magnitude a / unitsPerOne))
    (rounded : IsNearestRank (d.value * unitsPerOne) b) :
    IsNearest 7 d (magnitude b / unitsPerOne) := by
  have units := unitsPerOne_pos
  have distance : ∀ r : Nat, |d.value - magnitude r / unitsPerOne| =
      |(magnitude r : ℚ) - d.value * unitsPerOne| / unitsPerOne := by
    intro r
    rw [abs_sub_comm, ← abs_of_pos units, ← abs_div, sub_div, abs_of_pos units,
      mul_div_cancel_right₀ _ units.ne']
  have closer : |d.value - magnitude b / unitsPerOne| ≤
      |d.value - magnitude a / unitsPerOne| := by
    rw [distance, distance]
    exact div_le_div_of_nonneg_right (rounded.le a) units.le
  have near := h.two_mul_abs_sub_le
  refine isNearest_of_abs_sub_le h.hasDigits (by decide) (by linarith)
    (fun half => h.even_of_two_mul_abs_sub_eq (by linarith)) fun power => ?_
  refine (h.reread_power rounded power).imp (fun above => ?_) fun close => ?_
  · rwa [le_div_iff₀ units]
  · refine le_of_mul_le_mul_right ?_ units
    rwa [mul_assoc, sub_mul, div_mul_cancel₀ _ units.ne']

end Decimal

namespace Binary64

/-- Zero is read as zero. -/
theorem rank_writtenDecimal_zero : (writtenDecimal 0).rank = 0 := by
  have none : (writtenDecimal 0).value = 0 := Decimal.value_eq_zero rfl
  have nearest := (writtenDecimal 0).isNearestRank_rank
  rw [none, zero_mul] at nearest
  exact nearest.unique (isNearestRank_zero le_rfl (by norm_num))

/-- What is written for a finite number is read as a finite number. -/
theorem rank_writtenDecimal_lt (rank : Fin infinityRank) :
    (writtenDecimal rank).rank < infinityRank := by
  by_cases zero : rank.val = 0
  · rw [zero, rank_writtenDecimal_zero]
    exact infinityRank_pos
  · have last : infinityRank - 1 < infinityRank :=
      Nat.sub_lt infinityRank_pos Nat.one_pos
    have last_ne : (⟨_, last⟩ : Fin infinityRank).val ≠ 0 := by
      show infinityRank - 1 ≠ 0
      decide
    have order : (magnitude rank : ℚ) ≤ magnitude (infinityRank - 1) := by
      exact_mod_cast strictMono_magnitude.monotone
        (Nat.le_sub_one_of_lt rank.isLt)
    have below := (isNearest_writtenDecimal zero).mono
      (isNearest_writtenDecimal last_ne)
      (div_le_div_of_nonneg_right order unitsPerOne_pos.le)
    obtain ⟨written, most⟩ := writtenDecimal_last
    have value : (⟨1797693, 302⟩ : Decimal).value = 1797693 * tenTo 302 := by
      rw [Decimal.value, tenTo_cast, ← zpow_natCast]
      norm_num
    have most' : (1797693 * tenTo 302 * unitsPerOne : ℚ) ≤
        magnitude (infinityRank - 1) := by exact_mod_cast most
    rw [written, value] at below
    have nearest := (writtenDecimal rank).isNearestRank_rank
    have le := nearest.le_of_ge
      ((mul_le_mul_of_nonneg_right below unitsPerOne_pos.le).trans most')
    exact Nat.lt_of_le_of_lt le last

/-- **The number that is read** from the text of a finite number is finite,
and is written as the same decimal. -/
theorem reread_finite (negative : Bool) (rank : Fin infinityRank) :
    ∃ rank' : Fin infinityRank,
      (finite negative rank).reread = finite negative rank' ∧
        writtenDecimal rank' = writtenDecimal rank ∧
        (rank'.val = 0 ↔ rank.val = 0) := by
  refine ⟨⟨_, rank_writtenDecimal_lt rank⟩,
    dif_pos (rank_writtenDecimal_lt rank), ?_⟩
  by_cases zero : rank.val = 0
  · simp only [zero, rank_writtenDecimal_zero, and_self]
  · have nearest := isNearest_writtenDecimal zero
    have again := nearest.reread (writtenDecimal rank).isNearestRank_rank
    have ne : (⟨_, rank_writtenDecimal_lt rank⟩ : Fin infinityRank).val ≠
        0 := by
      intro none
      have pos := again.pos
      rw [show (writtenDecimal rank).rank = 0 from none, magnitude_zero,
        Nat.cast_zero, zero_div] at pos
      exact pos.false
    exact ⟨(isNearest_writtenDecimal ne).unique again, iff_of_false ne zero⟩

/-- Writing again what was read changes nothing. -/
theorem scientific_reread_finite (negative : Bool) (rank : Fin infinityRank) :
    (finite negative rank).reread.scientific =
      (finite negative rank).scientific := by
  obtain ⟨rank', eq, written, -⟩ := reread_finite negative rank
  rw [eq, scientific_finite, scientific_finite, written]

/-- A finite number lies below zero if it has a minus sign and is not zero. -/
theorem lt_zero_finite (negative : Bool) (rank : Fin infinityRank) :
    (finite negative rank).lt zero =
      (negative && decide (rank.val ≠ 0)) := by
  rw [lt, place?_zero]
  cases negative with
  | false => simp [place?]
  | true => simp [place?, Nat.pos_iff_ne_zero]

end Binary64

/-! ### Rules that are read back -/

namespace WeightedRule

/-- The probability of a rule that is read from the line of a production is
that of the line. -/
theorem probability?_of_parse_ruleText {tag probability : Text}
    {e : Expansion} {rule : WeightedRule}
    (h : Production.IsWritable ⟨tag, e⟩) (token : Text.IsToken probability)
    (parsed : parse (ruleText tag probability e) = .ok rule) :
    probability? probability = .ok rule.probability := by
  rw [parse_ruleText h token] at parsed
  split at parsed
  · exact (ofParts_eq_ok_iff.1 parsed).2.1
  · exact (ofParts_eq_ok_iff.1 parsed).2.1

end WeightedRule

/-- The line of an expansion ends with the text of the probability that is
read from it. -/
theorem ruleTextOf_of_parse {listing : Bytes} (h : Accepts listing)
    {b : Block} (mb : b ∈ (finalTable listing).blocks) {e : Expansion}
    (me : e ∈ b.expansions) {rule : WeightedRule}
    (parsed : WeightedRule.parse (b.ruleTextOf e) = .ok rule) :
    ∃ start, b.ruleTextOf e =
      start ++ closeMark ++ rule.probability.scientific := by
  have some := List.length_pos_of_mem me
  have read := WeightedRule.probability?_of_parse_ruleText
    (isWritable_of_mem_finalTable h mb me) (probability?_scientific some).1
    parsed
  obtain ⟨rank, eq⟩ := uniformProbability_eq some
  rw [eq, Binary64.probability?_scientific_finite, Except.ok.injEq] at read
  rw [← read, Binary64.scientific_reread_finite, ← eq]
  exact ⟨_, rfl⟩

/-- The rules that are read from the output of a conversion stand in its
lines, one in each. -/
theorem parse_of_readRules {listing : Bytes} (h : Accepts listing)
    {rules : List WeightedRule} {rule : WeightedRule} {i : Nat}
    (read : readRules (convert listing none).output = .ok rules)
    (at_i : rules[i]? = some rule) :
    ∃ line, (finalTable listing).ruleTexts[i]? = some line ∧
      WeightedRule.parse line = .ok rule := by
  rw [readRules, lines_output h] at read
  rcases readRuleLines_cases (trim_ruleTexts h) 1 with
    ⟨rules', read', all⟩ | ⟨_, _, _, -, -, read'⟩
  · obtain rfl : rules = rules' := Except.ok.inj (read.symm.trans read')
    have parsed : ((finalTable listing).ruleTexts.map WeightedRule.parse)[i]? =
        some (.ok rule) := by
      rw [all, List.getElem?_map, at_i]
      rfl
    rw [List.getElem?_map] at parsed
    exact Option.map_eq_some_iff.1 parsed
  · rw [read'] at read
    cases read

/-- **Written numbers keep their text.**  The text of a finite number is read
as a finite number, the nearest one to its decimal, and this has the same
text.  It is taken for a probability unless the number that was written lies
below zero.  So the probability of every rule that is read from the output of
a conversion, line by line or as a whole, is written with the characters at
the end of its line. -/
theorem scientific_reread :
    (∀ negative rank, ∃ numeral rank',
        looksNumeric (Binary64.finite negative rank).scientific = true ∧
          Numeral.parse? (Binary64.finite negative rank).scientific =
            some numeral ∧
          numeral.value = .finite negative rank' ∧
          (Binary64.finite negative rank').IsNearest negative
            numeral.decimal.value ∧
          (Binary64.finite negative rank').scientific =
            (Binary64.finite negative rank).scientific ∧
          WeightedRule.probability?
              (Binary64.finite negative rank).scientific =
            if (Binary64.finite negative rank).lt Binary64.zero then
              .error .negative
            else .ok (.finite negative rank')) ∧
      ∀ listing room n, (convert listing room).result = .ok n →
        (∀ line rule, some line ∈ (convert listing room).output.lines →
          WeightedRule.parse line = .ok rule →
            ∃ start, line =
              start ++ closeMark ++ rule.probability.scientific) ∧
        ∀ rules (i : Nat) rule,
          readRules (convert listing room).output = .ok rules →
          rules[i]? = some rule →
            ∃ start, (convert listing room).output.lines[i]? =
              some (some (start ++ closeMark ++
                rule.probability.scientific)) := by
  refine ⟨fun negative rank => ?_, fun listing room n h => ?_⟩
  · have parsed := Binary64.parse?_scientific_finite negative rank
    obtain ⟨rank', eq, -, zero⟩ := Binary64.reread_finite negative rank
    have value := Binary64.value_writtenDecimal negative rank
    have text := Binary64.scientific_reread_finite negative rank
    obtain ⟨parts, spells, -⟩ := Numeral.parse?_eq_some_iff.1 parsed
    rw [eq] at value text
    have nearest :=
      Numeral.isNearest_value ⟨negative, Binary64.writtenDecimal rank⟩
    rw [value] at nearest
    refine ⟨_, rank', spells.looksNumeric, parsed, value, nearest, text, ?_⟩
    rw [WeightedRule.probability?, if_pos spells.looksNumeric, parsed]
    simp only [value, Binary64.lt_zero_finite, ne_eq, zero]
  · obtain ⟨ok, same⟩ := convert_of_ok h
    have accepted : Accepts listing := ⟨n, ok⟩
    have ends : ∀ line rule, line ∈ (finalTable listing).ruleTexts →
        WeightedRule.parse line = .ok rule → ∃ start,
          line = start ++ closeMark ++ rule.probability.scientific := by
      intro line rule m parsed
      obtain ⟨b, mb, e, me, rfl⟩ := RuleTable.mem_ruleTexts.1 m
      exact ruleTextOf_of_parse accepted mb me parsed
    rw [← same, lines_output accepted]
    refine ⟨fun line rule m => ends line rule ?_,
      fun rules i rule read at_i => ?_⟩
    · obtain ⟨line', m', eq⟩ := List.mem_map.1 m
      rwa [← Option.some.inj eq]
    · obtain ⟨line, at_line, parsed⟩ := parse_of_readRules accepted read at_i
      obtain ⟨start, eq⟩ := ends line rule (List.mem_of_getElem? at_line) parsed
      refine ⟨start, ?_⟩
      rw [List.getElem?_map, at_line, eq]
      rfl

/-- A rule that is one of three is read back with another probability, which
has the same text. -/
theorem scientific_reread_three :
    ∃ rule : WeightedRule,
      WeightedRule.parse "A->[D] : 3.333333e-01".toList = .ok rule ∧
        rule.probability ≠ uniformProbability 3 ∧
        ∃ start, "A->[D] : 3.333333e-01".toList =
          start ++ closeMark ++ rule.probability.scientific := by
  have ok : (convert (Text.encode "A --> B\nA --> C\nA --> D\n".toList)
      none).result = .ok 3 := by decide +kernel
  have line : some "A->[D] : 3.333333e-01".toList ∈
      (convert (Text.encode "A --> B\nA --> C\nA --> D\n".toList)
        none).output.lines := by decide +kernel
  have parsed : WeightedRule.parse "A->[D] : 3.333333e-01".toList =
      .ok ⟨⟨['A'], [.nonterminal ['D']]⟩, .ofBits 0x3FD55555318ABC87⟩ := by
    decide +kernel
  exact ⟨_, parsed, by decide +kernel,
    (scientific_reread.2 _ _ _ ok).1 _ _ line parsed⟩

end TreebankGrammar
