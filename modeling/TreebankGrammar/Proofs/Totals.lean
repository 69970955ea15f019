/-
TreebankGrammar/Proofs/Totals.lean

The probabilities of a written file sum to one.

What is checked for each tag is not the sum of its probabilities but the
result of a computation: the reciprocal of their number is rounded to a
number, this to seven digits, the digits are read as a number again, and the
numbers are added one by one, each sum rounded.  For a tag with fewer than
2^31 expansions all this is off by less than one part in a million, half of
which is due to the seven digits and nearly half to the additions.

Design.  The total of a tag is the sum over its own rules alone
(`totals_eq`), and these are copies of one probability.  A sum of copies is
followed addition by addition (`near_sumOf_replicate`): the distance to the
exact sum grows by at most the rounding of a number that is never above two.

Main result: `verify_output`.
-/
import TreebankGrammar.Proofs.DecimalPrecision
import TreebankGrammar.Proofs.LineOrder
import TreebankGrammar.Proofs.Rereading
import TreebankGrammar.RuleFile.Distribution

namespace TreebankGrammar

open Production (openMark)

/-! ### Totals by tag -/

/-- The sum of numbers, added one by one to zero. -/
def sumOf (ps : List Binary64) : Binary64 :=
  ps.foldl Binary64.add Binary64.zero

/-- The probabilities of the rules of a tag. -/
def probabilitiesOf (rules : List WeightedRule) (tag : Text) :
    List Binary64 :=
  (rules.filter fun rule => rule.production.lhs = tag).map
    WeightedRule.probability

theorem sumOf_append_singleton (ps : List Binary64) (p : Binary64) :
    sumOf (ps ++ [p]) = (sumOf ps).add p := by
  rw [sumOf, List.foldl_append]
  rfl

theorem probabilitiesOf_append_singleton (rules : List WeightedRule)
    (rule : WeightedRule) (tag : Text) :
    probabilitiesOf (rules ++ [rule]) tag =
      if rule.production.lhs = tag then
        probabilitiesOf rules tag ++ [rule.probability]
      else probabilitiesOf rules tag := by
  rw [probabilitiesOf, List.filter_append, List.map_append]
  by_cases h : rule.production.lhs = tag <;> simp [h, probabilitiesOf]

theorem probabilitiesOf_eq_nil {rules : List WeightedRule} {tag : Text}
    (h : tag ∉ rules.map fun rule => rule.production.lhs) :
    probabilitiesOf rules tag = [] := by
  rw [probabilitiesOf, List.map_eq_nil_iff, List.filter_eq_nil_iff]
  intro rule m
  rw [decide_eq_true_eq]
  rintro rfl
  exact h (List.mem_map_of_mem m)

/-- Adding to the total of a tag leaves the totals of the others. -/
theorem addToTotal_map {tags : List Text} (nodup : tags.Nodup)
    (total : Text → Binary64) (tag : Text) (p : Binary64) :
    addToTotal tag p (tags.map fun t => (t, total t)) =
      if tag ∈ tags then
        tags.map fun t => (t, if t = tag then (total t).add p else total t)
      else (tags.map fun t => (t, total t)) ++ [(tag, Binary64.zero.add p)] := by
  induction tags with
  | nil => rfl
  | cons t tags ih =>
    obtain ⟨new, nodup⟩ := List.nodup_cons.1 nodup
    rw [List.map_cons, addToTotal]
    by_cases here : t = tag
    · subst here
      have others : tags.map (fun u => (u, total u)) =
          tags.map fun u => (u, if u = t then (total u).add p else total u) := by
        refine List.map_congr_left fun u m => ?_
        rw [if_neg (ne_of_mem_of_not_mem m new)]
      simp [others]
    · rw [if_neg here, ih nodup]
      by_cases later : tag ∈ tags <;> simp [later, here, Ne.symm here]

/-- **The total of a tag** is the sum of the probabilities of its rules, in
their order; the tags are in the order of their first rules. -/
theorem totals_eq (rules : List WeightedRule) :
    totals rules =
      (distinct (rules.map fun rule => rule.production.lhs)).map fun tag =>
        (tag, sumOf (probabilitiesOf rules tag)) := by
  induction rules using List.reverseRecOn with
  | nil => rfl
  | append_singleton rules rule ih =>
    have step : totals (rules ++ [rule]) =
        addToTotal rule.production.lhs rule.probability (totals rules) := by
      rw [totals, List.foldl_append]
      rfl
    rw [step, ih, addToTotal_map (nodup_distinct _), List.map_append,
      List.map_singleton, distinct_append_singleton]
    simp only [mem_distinct]
    split
    · refine List.map_congr_left fun t _ => ?_
      rw [probabilitiesOf_append_singleton]
      by_cases here : t = rule.production.lhs
      · rw [if_pos here, if_pos here.symm, sumOf_append_singleton]
      · rw [if_neg here, if_neg (Ne.symm here)]
    · rename_i new
      rw [List.map_append, List.map_singleton,
        probabilitiesOf_append_singleton, if_pos rfl,
        probabilitiesOf_eq_nil new]
      congr 1
      refine List.map_congr_left fun t m => ?_
      rw [probabilitiesOf_append_singleton, if_neg]
      rintro rfl
      exact new (mem_distinct.1 m)

/-! ### Sums of copies -/

theorem value?_zero : Binary64.zero.value? = some 0 := by
  rw [zero_eq, Binary64.value?, Binary64.units, if_neg Bool.false_ne_true,
    magnitude_zero]
  simp

/-- **A sum of copies** of a number is near to the product, as long as it
stays below two. -/
theorem near_sumOf_replicate {p : Binary64} {w : ℚ} (value : p.value? = some w)
    (low : 1 / 2 ^ 40 ≤ w) (n : Nat) (few : n < 2 ^ 31)
    (high : n * w ≤ 3 / 2) :
    ∃ s, (sumOf (List.replicate n p)).value? = some s ∧
      |s - n * w| ≤ n / 2 ^ 52 := by
  induction n with
  | zero => exact ⟨0, value?_zero, by simp⟩
  | succ n ih =>
    push_cast at high ⊢
    have count : (n : ℚ) + 1 ≤ 2147483648 := by exact_mod_cast few.le
    have count_nonneg : (0 : ℚ) ≤ n := Nat.cast_nonneg n
    have smaller : n * w ≤ 3 / 2 := by linarith
    obtain ⟨s, value', near⟩ := ih (by omega) smaller
    obtain ⟨above, below⟩ := abs_le.1 near
    -- the sum so far is neither negative nor large
    have drift : (n : ℚ) / 2 ^ 52 ≤ n * w := by
      rw [div_eq_mul_inv]
      exact mul_le_mul_of_nonneg_left (by norm_num at low ⊢; linarith)
        count_nonneg
    have nonneg : 0 ≤ s := by linarith
    have bounded : s + w ≤ 2 := by
      norm_num at below
      linarith
    have normal : IsNormal (s + w) := by
      norm_num at low
      apply isNormal_of_bounds
      · linarith
      · linarith
    obtain ⟨s', value'', rounded⟩ := Binary64.rounds_add value' value normal
    refine ⟨s', ?_, ?_⟩
    · rw [List.replicate_succ', sumOf_append_singleton, value'']
    · have error : 1 / 2 ^ 53 * (s + w) ≤ 1 / 2 ^ 52 := by
        norm_num
        linarith
      calc |s' - (n + 1) * w|
          = |(s' - (s + w)) + (s - n * w)| := by ring_nf
        _ ≤ |s' - (s + w)| + |s - n * w| := abs_add_le _ _
        _ ≤ 1 / 2 ^ 52 + n / 2 ^ 52 := add_le_add (le_trans rounded error) near
        _ = (n + 1) / 2 ^ 52 := by ring

/-- The probability that is read back for one of some expansions. -/
theorem near_reread_uniformProbability {count : Nat} (pos : 0 < count)
    (few : count < 2 ^ 31) :
    ∃ w, (uniformProbability count).reread.value? = some w ∧
      Near (500002 / 10 ^ 12) w (1 / count) := by
  obtain ⟨v, value, near⟩ :=
    near_uniformProbability pos (few.trans (by norm_num))
  obtain ⟨rank, eq⟩ := uniformProbability_eq pos
  have pos' : (1 : ℚ) ≤ count := by exact_mod_cast pos
  have few' : (count : ℚ) ≤ 2147483648 := by exact_mod_cast few.le
  have least : (1 : ℚ) / 2147483648 ≤ 1 / count :=
    one_div_le_one_div_of_le (by linarith) few'
  have most : (1 : ℚ) / count ≤ 1 := by
    rw [div_le_one (by linarith)]
    exact pos'
  generalize (1 : ℚ) / count = exact at near least most ⊢
  obtain ⟨above, below⟩ := near.bounds
  norm_num at above below least
  rw [eq] at value ⊢
  obtain ⟨w, value', near'⟩ := Binary64.near_reread value (by linarith)
    (by linarith)
  refine ⟨w, value', (near'.trans near (by norm_num)).mono ?_ ?_⟩
  · norm_num
  · linarith

/-- **The total of a tag** with fewer than 2^31 expansions is near to one. -/
theorem near_one {count : Nat} (pos : 0 < count) (few : count < 2 ^ 31) :
    ∃ v, (sumOf (List.replicate count
        (uniformProbability count).reread)).value? = some v ∧
      |v - 1| ≤ 1 / 10 ^ 6 := by
  obtain ⟨w, value, near⟩ := near_reread_uniformProbability pos few
  have pos' : (0 : ℚ) < count := by exact_mod_cast pos
  have few' : (count : ℚ) ≤ 2147483648 := by exact_mod_cast few.le
  have product := near.mul_left pos'.le
  rw [mul_one_div_cancel pos'.ne'] at product
  obtain ⟨above, below⟩ := product.bounds
  have low : 1 / 2 ^ 40 ≤ w := by
    refine le_of_mul_le_mul_left ?_ pos'
    norm_num at above ⊢
    linarith
  obtain ⟨v, value', drift⟩ := near_sumOf_replicate value low count few
    (by norm_num at below; linarith)
  refine ⟨v, value', ?_⟩
  calc |v - 1| ≤ |v - count * w| + |count * w - 1| := abs_sub_le _ _ _
    _ ≤ count / 2 ^ 52 + 500002 / 10 ^ 12 * 1 := add_le_add drift product
    _ ≤ 1 / 10 ^ 6 := by
        norm_num
        linarith

/-! ### The check -/

theorem one_eq : ∃ rank, Binary64.one = .finite false rank ∧
    magnitude rank = unitsPerOne := by
  refine ⟨⟨_, nearestRank_unitsPerOne_lt⟩, ?_, ?_⟩
  · rw [Binary64.one, Binary64.ofNat, Binary64.nearest, Nat.one_mul,
      Binary64.ofRank, dif_pos nearestRank_unitsPerOne_lt]
  · show magnitude (nearestRank unitsPerOne 1) = unitsPerOne
    rw [nearestRank_unitsPerOne, Nat.succ_mul 1022 blockSize,
      magnitude_block (.inr le_rfl)
        (Nat.le_mul_of_pos_left _ (by decide)), unitsPerOne_eq]

-- the numbers below are never evaluated
attribute [local irreducible] tenTo unitsPerOne nearestRank

/-- The tolerance is finite. -/
theorem nearestRank_tolerance_lt :
    nearestRank unitsPerOne (tenTo 6) < infinityRank := by
  refine Nat.lt_of_le_of_lt ?_ nearestRank_unitsPerOne_lt
  refine nearestRank_mono (tenTo_pos 6) Nat.one_pos ?_
  exact Nat.mul_le_mul_left _ (tenTo_pos 6)

theorem abs_ofRank (negative : Bool) {rank : Nat} (h : rank < infinityRank) :
    (Binary64.ofRank negative rank).abs = .finite false ⟨rank, h⟩ := by
  rw [Binary64.ofRank, dif_pos h]
  rfl

theorem lt_finite (a b : Fin infinityRank) :
    (Binary64.finite false a).lt (.finite false b) = decide (a < b) := by
  simp [Binary64.lt, Binary64.place?]

/-- A total near to one passes the check. -/
theorem isUnbalanced_of_near {total : Binary64} {v : ℚ}
    (h : total.value? = some v) (near : |v - 1| ≤ 1 / 10 ^ 6) :
    isUnbalanced total = false := by
  obtain ⟨s, a, rfl, exact⟩ := Binary64.value?_eq_some h
  obtain ⟨one, eq, whole⟩ := one_eq
  -- the exact distance from one, in units
  have distance : ((Binary64.units s a + Binary64.units true one : Int) : ℚ) =
      (v - 1) * unitsPerOne := by
    rw [Int.cast_add, exact, Binary64.units, if_pos rfl, whole]
    push_cast
    ring
  have small : (Binary64.units s a + Binary64.units true one).natAbs *
      tenTo 6 ≤ unitsPerOne * 1 := by
    have cast : ((Binary64.units s a + Binary64.units true one).natAbs : ℚ) *
        tenTo 6 ≤ unitsPerOne := by
      rw [Nat.cast_natAbs, Int.cast_abs, distance, abs_mul,
        abs_of_pos unitsPerOne_pos, tenTo_cast, mul_right_comm]
      refine mul_le_of_le_one_left unitsPerOne_pos.le ?_
      rwa [← le_div_iff₀ (by positivity)]
    rw [Nat.mul_one]
    exact_mod_cast cast
  obtain ⟨negative, difference⟩ : ∃ negative,
      (Binary64.finite s a).sub Binary64.one = .nearest negative
        (Binary64.units s a + Binary64.units true one).natAbs 1 :=
    ⟨_, by rw [Binary64.sub, eq]; rfl⟩
  have le := nearestRank_mono Nat.one_pos (tenTo_pos 6) small
  rw [isUnbalanced, sumTolerance, difference, Binary64.nearest,
    Binary64.nearest,
    abs_ofRank _ (Nat.lt_of_le_of_lt le nearestRank_tolerance_lt),
    Binary64.ofRank, dif_pos nearestRank_tolerance_lt, lt_finite]
  exact decide_eq_false (Nat.not_lt.2 le)

/-- **What is checked**: a file passes just if no tag's total is too far from
one. -/
theorem verify_eq_ok_iff {rules : List WeightedRule} :
    verify rules = .ok () ↔
      ∀ entry ∈ totals rules, isUnbalanced entry.2 = false := by
  rw [verify]
  split
  · rename_i tag total found
    refine iff_of_false (by simp) fun balanced => ?_
    have unbalanced := List.find?_some found
    have member := List.mem_of_find?_eq_some found
    exact Bool.eq_false_iff.1 (balanced _ member) unbalanced
  · rename_i none
    refine iff_of_true rfl ?_
    rintro ⟨tag, total⟩ m
    exact Bool.eq_false_iff.2 (List.find?_eq_none.1 none _ m)

/-! ### Written files -/

/-- The rule that is read from the line of one of a block's expansions. -/
def Block.rereadRule (b : Block) (e : Expansion) : WeightedRule :=
  ⟨⟨b.tag, e.reread⟩, (uniformProbability b.expansions.length).reread⟩

/-- The rules that are read from the file of a table. -/
def RuleTable.rereadRules (t : RuleTable) : List WeightedRule :=
  t.blocks.flatMap fun b => b.expansions.map b.rereadRule

/-- A file without the mark in a tag is read as the rules of its table. -/
theorem readRules_output_eq {listing : Bytes} (h : Accepts listing)
    (apart : ∀ b ∈ (finalTable listing).blocks, ¬ openMark <:+: b.tag) :
    readRules (convert listing none).output =
      .ok (finalTable listing).rereadRules := by
  have parsed : (finalTable listing).ruleTexts.map WeightedRule.parse =
      (finalTable listing).rereadRules.map .ok := by
    rw [RuleTable.ruleTexts, RuleTable.rereadRules, List.map_flatMap,
      List.map_flatMap]
    refine List.flatMap_congr fun b mb => ?_
    rw [Block.ruleTexts, List.map_map, List.map_map]
    refine List.map_congr_left fun e me => ?_
    have writable := isWritable_of_mem_finalTable h mb me
    have pos := List.length_pos_of_mem me
    have token := (probability?_scientific pos).1
    obtain ⟨rank, eq⟩ := uniformProbability_eq pos
    have value := eq ▸ Binary64.probability?_scientific_finite rank
    have line := WeightedRule.parse_writable writable (apart b mb) token value
      (List.forall_mem_nil _)
    rwa [List.append_nil] at line
  rw [readRules, lines_output h]
  rcases readRuleLines_cases (trim_ruleTexts h) 1 with
    ⟨rules, read, all⟩ | ⟨i, t, fault, at_i, refused, -⟩
  · have same : rules = (finalTable listing).rereadRules :=
      List.map_injective_iff.2 (fun _ _ => Except.ok.inj)
        (all.symm.trans parsed)
    rw [read, same]
  · -- no line is refused
    have m := List.mem_map_of_mem (f := WeightedRule.parse)
      (List.mem_of_getElem? at_i)
    rw [parsed, refused] at m
    obtain ⟨rule, -, eq⟩ := List.mem_map.1 m
    cases eq

theorem probabilitiesOf_append (rules others : List WeightedRule)
    (tag : Text) :
    probabilitiesOf (rules ++ others) tag =
      probabilitiesOf rules tag ++ probabilitiesOf others tag := by
  rw [probabilitiesOf, List.filter_append, List.map_append]
  rfl

/-- Copies of one probability for one tag. -/
theorem probabilitiesOf_map (tag : Text) (p : Binary64)
    (f : Expansion → Expansion) (es : List Expansion) :
    probabilitiesOf (es.map fun e => ⟨⟨tag, f e⟩, p⟩) tag =
      List.replicate es.length p := by
  induction es with
  | nil => rfl
  | cons e es ih =>
    rw [probabilitiesOf] at ih ⊢
    simp [List.replicate_succ, ih]

theorem mem_rereadRules {blocks : List Block} {rule : WeightedRule} :
    (rule ∈ blocks.flatMap fun b => b.expansions.map b.rereadRule) ↔
      ∃ b ∈ blocks, ∃ e ∈ b.expansions, b.rereadRule e = rule := by
  simp only [List.mem_flatMap, List.mem_map]

/-- The probabilities of a tag are those of its block. -/
theorem probabilitiesOf_rereadRules {blocks : List Block}
    (ordered : (blocks.map Block.tag).Pairwise (· < ·)) {b : Block}
    (m : b ∈ blocks) :
    probabilitiesOf (blocks.flatMap fun c => c.expansions.map c.rereadRule)
        b.tag =
      List.replicate b.expansions.length
        (uniformProbability b.expansions.length).reread := by
  induction blocks with
  | nil => cases m
  | cons c blocks ih =>
    rw [List.map_cons, List.pairwise_cons] at ordered
    rw [List.flatMap_cons, probabilitiesOf_append]
    rcases List.mem_cons.1 m with rfl | m
    · have none : probabilitiesOf
          (blocks.flatMap fun c => c.expansions.map c.rereadRule) b.tag =
            [] := by
        refine probabilitiesOf_eq_nil fun mt => ?_
        obtain ⟨rule, mr, eq⟩ := List.mem_map.1 mt
        obtain ⟨d, md, e, -, rfl⟩ := mem_rereadRules.1 mr
        have lt := ordered.1 d.tag (List.mem_map_of_mem md)
        exact absurd (eq ▸ lt) (List.lt_irrefl b.tag)
      rw [none, List.append_nil]
      exact probabilitiesOf_map b.tag _ Expansion.reread b.expansions
    · have none : probabilitiesOf (c.expansions.map c.rereadRule) b.tag =
          [] := by
        refine probabilitiesOf_eq_nil fun mt => ?_
        obtain ⟨rule, mr, eq⟩ := List.mem_map.1 mt
        obtain ⟨e, -, rfl⟩ := List.mem_map.1 mr
        have lt := ordered.1 b.tag (List.mem_map_of_mem m)
        exact absurd (eq ▸ lt) (List.lt_irrefl b.tag)
      rw [none, List.nil_append, ih ordered.2 m]

theorem length_rereadRules (t : RuleTable) :
    t.rereadRules.length = t.ruleTexts.length := by
  simp [RuleTable.rereadRules, RuleTable.ruleTexts, Block.ruleTexts,
    List.length_flatMap]

/-- No tag of an accepted listing's table is without expansions. -/
theorem length_expansions_pos {listing : Bytes} (h : Accepts listing)
    {b : Block} (m : b ∈ (finalTable listing).blocks) :
    0 < b.expansions.length := by
  have found := RuleTable.mem_blocks_iff.1 m
  rw [List.length_pos_iff, ← RuleTable.expansionsOf_of_find? found]
  intro none
  rw [(records_finalTable h).sound.nonempty none] at found
  cases found

/-- **Written distributions sum to one.**  The output of a conversion, if no
tag contains the mark `->[` and every tag has fewer than 2^31 expansions, is
read back and passes the check of its totals; each of these is a finite
number that is off by at most one part in a million. -/
theorem verify_output {listing : Bytes} {room : Option Nat} {n : Nat}
    (h : (convert listing room).result = .ok n)
    (apart : ∀ b ∈ (finalTable listing).blocks, ¬ openMark <:+: b.tag)
    (few : ∀ b ∈ (finalTable listing).blocks,
      b.expansions.length < 2 ^ 31) :
    ∃ rules, readRules (convert listing room).output = .ok rules ∧
      rules.length = n ∧ verify rules = .ok () ∧
      ∀ b ∈ (finalTable listing).blocks, ∃ total v,
        (b.tag, total) ∈ totals rules ∧ total.value? = some v ∧
          |v - 1| ≤ 1 / 10 ^ 6 := by
  obtain ⟨ok, same⟩ := convert_of_ok h
  have accepted : Accepts listing := ⟨n, ok⟩
  have near : ∀ b ∈ (finalTable listing).blocks, ∃ v,
      (sumOf (probabilitiesOf (finalTable listing).rereadRules
        b.tag)).value? = some v ∧ |v - 1| ≤ 1 / 10 ^ 6 := by
    intro b mb
    rw [RuleTable.rereadRules, probabilitiesOf_rereadRules
      (finalTable listing).pairwise_tags mb]
    exact near_one (length_expansions_pos accepted mb) (few b mb)
  refine ⟨(finalTable listing).rereadRules, ?_, ?_, ?_, ?_⟩
  · rw [← same, readRules_output_eq accepted apart]
  · rw [length_rereadRules, length_ruleTexts ok]
  · rw [verify_eq_ok_iff, totals_eq]
    intro entry m
    obtain ⟨tag, mt, rfl⟩ := List.mem_map.1 m
    obtain ⟨rule, mr, rfl⟩ := List.mem_map.1 (mem_distinct.1 mt)
    obtain ⟨b, mb, e, -, rfl⟩ := mem_rereadRules.1 mr
    obtain ⟨v, value, le⟩ := near b mb
    exact isUnbalanced_of_near value le
  · intro b mb
    obtain ⟨v, value, le⟩ := near b mb
    refine ⟨_, v, ?_, value, le⟩
    obtain ⟨e, me⟩ := List.exists_mem_of_length_pos
      (length_expansions_pos accepted mb)
    rw [totals_eq, List.mem_map]
    refine ⟨b.tag, mem_distinct.2 (List.mem_map.2 ?_), rfl⟩
    exact ⟨b.rereadRule e, mem_rereadRules.2 ⟨b, mb, e, me, rfl⟩, rfl⟩

/-- Three expansions have probabilities that do not sum to one exactly. -/
theorem verify_output_three :
    (convert (Text.encode "S --> A\nS --> B\nS --> C\n".toList)
        none).result = .ok 3 ∧
      ∃ rules, readRules (convert
          (Text.encode "S --> A\nS --> B\nS --> C\n".toList) none).output =
            .ok rules ∧ rules.length = 3 ∧ verify rules = .ok () := by
  have written : (convert
      (Text.encode "S --> A\nS --> B\nS --> C\n".toList) none).result =
        .ok 3 := by decide +kernel
  obtain ⟨rules, read, length, ok, -⟩ :=
    verify_output written (by decide +kernel) (by decide +kernel)
  exact ⟨written, rules, read, length, ok⟩

end TreebankGrammar
