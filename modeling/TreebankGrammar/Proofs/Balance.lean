/-
TreebankGrammar/Proofs/Balance.lean

Which rule lists pass the check.

The check compares the distance of a total from one with the tolerance, and
the distance is itself a rounded number.  Rounding makes no difference here:
the total may be anything, and the check still decides whether its exact
distance from one is at most the tolerance (`isUnbalanced_iff`).  A total
that is not a number has no distance from one; it is the only one that is
not balanced and passes.

Design.  Near one the subtraction is exact, as both numbers are multiples of
the spacing below one; the distance is a multiple of it too and has few
digits (`dvd_distance`).  Further away the distance is rounded, but there it
is far above the tolerance, and so is what it is rounded to.

Main result: `verify_balance`.
-/
import TreebankGrammar.Proofs.Totals

namespace TreebankGrammar

/-! ### Balanced totals -/

/-- Whether a total is a finite number whose exact distance from one is at
most the tolerance. -/
def IsBalanced (total : Binary64) : Prop :=
  ∃ v tolerance, total.value? = some v ∧
    sumTolerance.value? = some tolerance ∧ |v - 1| ≤ tolerance

/-- Whether a total is a number, and not balanced. -/
def IsOff (total : Binary64) : Prop := total ≠ .nan ∧ ¬ IsBalanced total

theorem exists_unitsPerOne_eq : ∃ k, unitsPerOne = 2 ^ (k + 53) := by
  obtain ⟨k, sum⟩ : ∃ k, 1074 = k + 53 := ⟨1021, rfl⟩
  exact ⟨k, by rw [unitsPerOne, sum, Nat.one_shiftLeft]⟩

theorem four_le_tenTo : 4 ≤ tenTo 6 := by decide

-- the numbers below are never evaluated
attribute [local irreducible] tenTo unitsPerOne nearestRank

/-! ### The tolerance -/

/-- The rank of the tolerance. -/
def toleranceRank : Fin infinityRank :=
  ⟨nearestRank unitsPerOne (tenTo 6), nearestRank_tolerance_lt⟩

theorem sumTolerance_eq : sumTolerance = .finite false toleranceRank := by
  rw [sumTolerance, Binary64.nearest, Binary64.ofRank,
    dif_pos nearestRank_tolerance_lt]
  rfl

/-! ### The distance from one -/

/-- The distance of a number from one, in units. -/
def distance (negative : Bool) (rank : Nat) : Nat :=
  (Binary64.units negative rank - unitsPerOne).natAbs

section Distance

variable {k : Nat} (one : unitsPerOne = 2 ^ (k + 53))

include one

/-- The tolerance is below one half. -/
theorem magnitude_toleranceRank_lt :
    magnitude toleranceRank < 2 ^ (k + 52) := by
  have order : unitsPerOne * 1 ≤ 2 ^ (k + 51) * tenTo 6 := by
    rw [Nat.mul_one, one, Nat.pow_add 2 (k + 51) 2]
    exact Nat.mul_le_mul_left _ four_le_tenTo
  calc magnitude toleranceRank
      ≤ magnitude (nearestRank (2 ^ (k + 51)) 1) :=
        strictMono_magnitude.monotone
          (nearestRank_mono (tenTo_pos 6) Nat.one_pos order)
    _ = 2 ^ (k + 51) := magnitude_nearestRank_two_pow _
    _ < 2 ^ (k + 52) := Nat.pow_lt_pow_right (by decide) (by omega)

variable {negative : Bool} {rank : Nat}

/-- A distance of less than one half is a multiple of the spacing below
one. -/
theorem dvd_distance (near : distance negative rank < 2 ^ (k + 52)) :
    2 ^ k ∣ distance negative rank := by
  have two : unitsPerOne = 2 * 2 ^ (k + 52) := by
    rw [one, ← Nat.pow_succ']
  -- such a number is positive, and more than one half
  have positive : Binary64.units negative rank = magnitude rank := by
    cases negative with
    | false => rfl
    | true =>
      have units : Binary64.units true rank = -(magnitude rank : Int) := rfl
      rw [distance, units] at near
      omega
  rw [distance, positive] at near ⊢
  have large : 2 ^ (k + 52) ≤ magnitude rank := by omega
  have multiple : 2 ^ k ∣ unitsPerOne := by
    rw [one]
    exact Nat.pow_dvd_pow 2 (Nat.le_add_right k 53)
  rw [← Int.natCast_dvd]
  exact Int.dvd_sub (Int.natCast_dvd_natCast.2 (two_pow_dvd_magnitude large))
    (Int.natCast_dvd_natCast.2 multiple)

/-- **The rounded distance decides as the exact one does**, if it is
compared with a magnitude below one half. -/
theorem nearestRank_distance_le_iff {bound : Nat}
    (small : magnitude bound < 2 ^ (k + 52)) :
    nearestRank (distance negative rank) 1 ≤ bound ↔
      distance negative rank ≤ magnitude bound := by
  constructor
  · intro le
    have rounded := strictMono_magnitude.monotone le
    rcases Nat.lt_or_ge (distance negative rank) (2 ^ (k + 52)) with
      near | far
    · -- near one the distance is exact
      have digits : distance negative rank < 2 ^ (k + 53) :=
        near.trans (Nat.pow_lt_pow_right (by decide) (by omega))
      rwa [magnitude_nearestRank_of_dvd (dvd_distance one near) digits]
        at rounded
    · have order := strictMono_magnitude.monotone (nearestRank_mono
        Nat.one_pos Nat.one_pos (Nat.mul_le_mul_right 1 far))
      rw [magnitude_nearestRank_two_pow] at order
      omega
  · intro le
    have rounded := nearestRank_mono Nat.one_pos Nat.one_pos
      (Nat.mul_le_mul_right 1 le)
    rwa [nearestRank_magnitude] at rounded

end Distance

/-! ### The check -/

theorem isUnbalanced_nan : isUnbalanced .nan = false := by
  rw [isUnbalanced, sumTolerance_eq]
  rfl

/-- A finite number lies below what is rounded to a rank if its own rank is
smaller, be it that of a finite number or not. -/
theorem lt_abs_ofRank (a : Fin infinityRank) (negative : Bool) (rank : Nat) :
    (Binary64.finite false a).lt (Binary64.ofRank negative rank).abs =
      decide (a < rank) := by
  rw [Binary64.ofRank]
  split
  · simp [Binary64.abs, Binary64.lt, Binary64.place?]
  · rename_i large
    have below : (a : Nat) < rank := by omega
    simp [Binary64.abs, Binary64.lt, Binary64.place?, below]

theorem isUnbalanced_infinity (negative : Bool) :
    isUnbalanced (.infinity negative) = true := by
  obtain ⟨one, eq, -⟩ := one_eq
  have difference : (Binary64.infinity negative).sub Binary64.one =
      .infinity negative := by
    rw [eq]
    rfl
  have infinite : Binary64.infinity negative =
      .ofRank negative infinityRank := by
    rw [Binary64.ofRank, dif_neg (Nat.lt_irrefl _)]
  rw [isUnbalanced, difference, sumTolerance_eq, infinite, lt_abs_ofRank]
  exact decide_eq_true toleranceRank.isLt

/-- Which finite totals the check lets pass. -/
theorem isUnbalanced_finite (negative : Bool) (rank : Fin infinityRank) :
    isUnbalanced (.finite negative rank) = false ↔
      nearestRank (distance negative rank) 1 ≤ toleranceRank := by
  obtain ⟨one, eq, whole⟩ := one_eq
  have units : Binary64.units negative rank + Binary64.units true one =
      Binary64.units negative rank - unitsPerOne := by
    rw [Binary64.units.eq_1 true, if_pos rfl, whole]
    rfl
  obtain ⟨sign, difference⟩ : ∃ sign,
      (Binary64.finite negative rank).sub Binary64.one =
        .ofRank sign (nearestRank (distance negative rank) 1) := by
    rw [distance, ← units]
    exact ⟨_, by rw [Binary64.sub, eq]; rfl⟩
  rw [isUnbalanced, difference, sumTolerance_eq, lt_abs_ofRank,
    decide_eq_false_iff_not, Nat.not_lt]

theorem isBalanced_finite_iff (negative : Bool) (rank : Fin infinityRank) :
    IsBalanced (.finite negative rank) ↔
      distance negative rank ≤ magnitude toleranceRank := by
  have one_pos := unitsPerOne_pos
  -- the exact distance, as a count of units
  have away : |(Binary64.units negative rank : ℚ) / unitsPerOne - 1| =
      (distance negative rank : ℚ) / unitsPerOne := by
    rw [distance, Nat.cast_natAbs, Int.cast_abs, Int.cast_sub,
      Int.cast_natCast, ← abs_of_pos one_pos, ← abs_div, abs_of_pos one_pos,
      sub_div, div_self one_pos.ne']
  have balanced : IsBalanced (.finite negative rank) ↔
      |(Binary64.units negative rank : ℚ) / unitsPerOne - 1| ≤
        (magnitude toleranceRank : ℚ) / unitsPerOne := by
    simp [IsBalanced, sumTolerance_eq, Binary64.value?, Binary64.units]
  rw [balanced, away, div_le_div_iff_of_pos_right one_pos, Nat.cast_le]

/-- **What the check finds off** is what is a number and further from one
than the tolerance, exactly. -/
theorem isUnbalanced_iff (total : Binary64) :
    isUnbalanced total = true ↔ IsOff total := by
  cases total with
  | nan => simp [isUnbalanced_nan, IsOff]
  | infinity negative =>
    simp [isUnbalanced_infinity, IsOff, IsBalanced, Binary64.value?]
  | finite negative rank =>
    obtain ⟨k, one⟩ := exists_unitsPerOne_eq
    have small := magnitude_toleranceRank_lt one
    rw [← Bool.not_eq_false, isUnbalanced_finite,
      nearestRank_distance_le_iff one small, ← isBalanced_finite_iff]
    simp [IsOff]

/-! ### Rule lists -/

/-- The total of a tag: its probabilities, added to zero one by one in the
order of the list. -/
def totalOf (rules : List WeightedRule) (tag : Text) : Binary64 :=
  sumOf (probabilitiesOf rules tag)

/-- The first element with a property is the first distinct one. -/
theorem find?_distinct {α : Type} [DecidableEq α] (p : α → Bool)
    (xs : List α) : (distinct xs).find? p = xs.find? p := by
  induction xs with
  | nil => rfl
  | cons x xs ih =>
    rw [distinct, List.find?_cons, List.find?_cons]
    rcases here : p x with - | -
    · simp only
      rw [List.find?_filter, ← ih]
      congr 1
      funext y
      by_cases same : y = x <;> simp [same, here]
    · rfl

/-- The first total that is off is that of the first rule whose tag is. -/
theorem find?_totals (rules : List WeightedRule) :
    ((totals rules).find? fun (_, total) => isUnbalanced total) =
      (rules.find? fun rule =>
        isUnbalanced (totalOf rules rule.production.lhs)).map fun rule =>
          (rule.production.lhs, totalOf rules rule.production.lhs) := by
  rw [totals_eq, List.find?_map, find?_distinct, List.find?_map,
    Option.map_map]
  rfl

/-- What the first rule is whose tag is off. -/
theorem find?_isUnbalanced_eq_some_iff {rules : List WeightedRule}
    {rule : WeightedRule} :
    (rules.find? fun rule =>
        isUnbalanced (totalOf rules rule.production.lhs)) = some rule ↔
      ∃ before after, rules = before ++ rule :: after ∧
        (∀ other ∈ before, ¬ IsOff (totalOf rules other.production.lhs)) ∧
        IsOff (totalOf rules rule.production.lhs) := by
  rw [List.find?_eq_some_iff_append, isUnbalanced_iff]
  simp only [Bool.not_eq_true', ← Bool.not_eq_true, isUnbalanced_iff]
  constructor
  · rintro ⟨off, before, after, eq, first⟩
    exact ⟨before, after, eq, first, off⟩
  · rintro ⟨before, after, eq, first, off⟩
    exact ⟨off, before, after, eq, first⟩

theorem not_isOff_iff (total : Binary64) :
    ¬ IsOff total ↔ IsBalanced total ∨ total = .nan := by
  rw [IsOff, not_and_not_right, or_comm, or_iff_not_imp_left]

/-- **The check.**  A list of rules passes just if the total of each tag in
it is balanced, or is not a number.  Otherwise the error names the tag and
the total of the first rule of the list whose tag is off. -/
theorem verify_balance (rules : List WeightedRule) :
    (verify rules = .ok () ↔ ∀ rule ∈ rules,
        IsBalanced (totalOf rules rule.production.lhs) ∨
          totalOf rules rule.production.lhs = .nan) ∧
      ∀ error, verify rules = .error error ↔
        ∃ before rule after, rules = before ++ rule :: after ∧
          (∀ other ∈ before, ¬ IsOff (totalOf rules other.production.lhs)) ∧
          IsOff (totalOf rules rule.production.lhs) ∧
          error = .invalidDistribution rule.production.lhs
            (totalOf rules rule.production.lhs) := by
  simp only [← not_isOff_iff]
  rcases found : rules.find? fun rule =>
    isUnbalanced (totalOf rules rule.production.lhs) with - | rule
  · have none : ∀ rule ∈ rules,
        ¬ IsOff (totalOf rules rule.production.lhs) := by
      simpa only [isUnbalanced_iff] using List.find?_eq_none.1 found
    have ok : verify rules = .ok () := by
      rw [verify, find?_totals, found]
      rfl
    rw [ok]
    refine ⟨iff_of_true rfl none, fun error => iff_of_false (by simp) ?_⟩
    rintro ⟨before, rule, after, eq, -, off, -⟩
    exact none rule (by simp [eq]) off
  · obtain ⟨before, after, eq, first, off⟩ :=
      find?_isUnbalanced_eq_some_iff.1 found
    have failed : verify rules = .error (.invalidDistribution
        rule.production.lhs (totalOf rules rule.production.lhs)) := by
      rw [verify, find?_totals, found]
      rfl
    rw [failed]
    refine ⟨iff_of_false (by simp) fun none => ?_, fun error => ?_⟩
    · exact none rule (by simp [eq]) off
    · constructor
      · intro same
        exact ⟨before, rule, after, eq, first, off,
          (Except.error.inj same).symm⟩
      · rintro ⟨before', rule', after', eq', first', off', rfl⟩
        -- there is one first rule only
        have again := find?_isUnbalanced_eq_some_iff.2
          ⟨before', after', eq', first', off'⟩
        obtain rfl := Option.some.inj (found.symm.trans again)
        rfl

/-- A rule whose probability is not a number passes. -/
theorem not_verify_nan :
    ¬ ∀ rules, verify rules = .ok () ↔
      ∀ rule ∈ rules, IsBalanced (totalOf rules rule.production.lhs) := by
  intro all
  have passes : verify [⟨⟨['A'], [.nonterminal ['B']]⟩, .nan⟩] = .ok () := by
    decide +kernel
  have total : totalOf [⟨⟨['A'], [.nonterminal ['B']]⟩, .nan⟩] ['A'] =
      .nan := by decide +kernel
  obtain ⟨v, tolerance, value, -⟩ := (all _).1 passes _ List.mem_cons_self
  rw [total] at value
  cases value

end TreebankGrammar
