/-
TreebankGrammar/Proofs/Agreement.lean

Runs of requests.

Requests are done in order, up to the first refusal (`serveAll`).  A refusal
depends on what came before, so whether a run gets through seems to be a
matter of order.  It is not: a run gets through just if its requests *agree*
(`Agree`), that is, if all productions that they bring for a tag to be
registered are equal, and this is a property of the requests as a set.

The invariant behind it is that after a run that got through, the table
*records* the requests (`Records`): the expansions of every tag are the
distinct ones requested for it, in the order of first occurrence, and the
registered tags are those that a request registers.

Main result: `serveAll_spec`.
-/
import Mathlib.Data.List.Induction
import TreebankGrammar.Distinct
import TreebankGrammar.Proofs.Requests

namespace TreebankGrammar

/-! ### Requests for one tag -/

/-- The expansions that requests bring for a tag, in order, in plain
form. -/
def given (rs : List Request) (tag : Text) : List Expansion :=
  (rs.filter fun r => r.rule.lhs = tag).map fun r => r.rule.rhs.plain

theorem mem_given {rs : List Request} {tag : Text} {e : Expansion} :
    e ∈ given rs tag ↔
      ∃ r ∈ rs, r.rule.lhs = tag ∧ r.rule.rhs.plain = e := by
  simp [given, and_assoc]

theorem given_append_singleton (rs : List Request) (r : Request)
    (tag : Text) :
    given (rs ++ [r]) tag =
      if r.rule.lhs = tag then given rs tag ++ [r.rule.rhs.plain]
      else given rs tag := by
  by_cases h : r.rule.lhs = tag <;> simp [given, h]

/-- All productions for a tag that is to be registered are equal. -/
def Agree (rs : List Request) : Prop :=
  ∀ r ∈ rs, r.registers = true → ∀ q ∈ rs, q.rule.lhs = r.rule.lhs →
    q.rule.rhs.plain = r.rule.rhs.plain

theorem Agree.mono {rs qs : List Request} (h : Agree qs)
    (sub : ∀ r ∈ rs, r ∈ qs) : Agree rs :=
  fun r m reg q m' eq => h r (sub r m) reg q (sub q m') eq

/-- A request agrees with others just if, provided one of them all registers
its tag, all others for its tag bring the same expansion. -/
theorem agree_append_singleton {rs : List Request} {r : Request}
    (agree : Agree rs) :
    Agree (rs ++ [r]) ↔
      ((r.registers = true ∨
          ∃ p ∈ rs, p.registers = true ∧ p.rule.lhs = r.rule.lhs) →
        ∀ q ∈ rs, q.rule.lhs = r.rule.lhs →
          q.rule.rhs.plain = r.rule.rhs.plain) := by
  constructor
  · intro h reg q m eq
    have at_end : r ∈ rs ++ [r] := by simp
    have before : ∀ p ∈ rs, p ∈ rs ++ [r] := fun p => List.mem_append_left _
    rcases reg with reg | ⟨p, m', reg, eq'⟩
    · exact h r at_end reg q (before q m) eq
    · -- both have the expansion that registers the tag
      have hq := agree p m' reg q m (eq.trans eq'.symm)
      have hr := h p (before p m') reg r at_end eq'.symm
      exact hq.trans hr.symm
  · intro h p m reg q m' eq
    simp only [List.mem_append, List.mem_singleton] at m m'
    -- the last request may be the registering one, the other one, or both
    rcases m with m | rfl <;> rcases m' with m' | rfl
    · exact agree p m reg q m' eq
    · exact (h (.inr ⟨p, m, reg, eq.symm⟩) p m eq.symm).symm
    · exact h (.inl reg) q m' eq
    · rfl

namespace RuleTable

/-! ### Runs -/

/-- Does requests in order, up to the first refusal; gives the conflict, if
there was one, and the table at that point. -/
def serveAll : List Request → RuleTable → Option Conflict × RuleTable
  | [], t => (none, t)
  | r :: rs, t =>
    match t.serve r with
    | .error conflict => (some conflict, t)
    | .ok (t', _) => serveAll rs t'

theorem serveAll_append (rs qs : List Request) (t : RuleTable) :
    t.serveAll (rs ++ qs) =
      match t.serveAll rs with
      | (some conflict, t') => (some conflict, t')
      | (none, t') => t'.serveAll qs := by
  induction rs generalizing t with
  | nil => rfl
  | cons r rs ih =>
    rw [List.cons_append, serveAll, serveAll]
    rcases t.serve r with conflict | ⟨t', isNew⟩
    · rfl
    · exact ih t'

/-! ### What a table records -/

/-- A table holds just what requests brought. -/
structure Records (t : RuleTable) (rs : List Request) : Prop where
  sound : t.Sound
  expansions_eq : ∀ tag,
    (t.expansionsOf tag).map Expansion.plain = distinct (given rs tag)
  isPreterminal_iff : ∀ tag, t.isPreterminal tag = true ↔
    ∃ r ∈ rs, r.registers = true ∧ r.rule.lhs = tag

variable {t t' : RuleTable} {rs : List Request} {r : Request}

theorem Records.empty : empty.Records [] where
  sound := .empty
  expansions_eq _ := rfl
  isPreterminal_iff tag := by simp [isPreterminal_empty]

theorem Records.mem_expansionsOf (h : t.Records rs) {tag : Text}
    {e : Expansion} (m : e ∈ t.expansionsOf tag) :
    ∃ q ∈ rs, q.rule.lhs = tag ∧ q.rule.rhs.plain = e.plain := by
  rw [← mem_given, ← mem_distinct, ← h.expansions_eq]
  exact List.mem_map_of_mem m

theorem Records.exists_expansion (h : t.Records rs) {q : Request}
    (m : q ∈ rs) :
    ∃ e ∈ t.expansionsOf q.rule.lhs, e.plain = q.rule.rhs.plain := by
  rw [← List.mem_map, h.expansions_eq, mem_distinct, mem_given]
  exact ⟨q, m, rfl, rfl⟩

/-- A table that records requests refuses just those that do not agree with
them. -/
theorem Records.refuses_iff (h : t.Records rs) (agree : Agree rs) :
    ¬ t.refuses r ↔ Agree (rs ++ [r]) := by
  rw [agree_append_singleton agree, refuses, h.isPreterminal_iff, not_and]
  refine imp_congr_right fun _ => ?_
  constructor
  · intro none q m eq
    obtain ⟨e, m', same⟩ := h.exists_expansion m
    rw [eq] at m'
    exact same ▸ Decidable.byContradiction fun ne => none ⟨e, m', ne⟩
  · rintro all ⟨e, m, ne⟩
    obtain ⟨q, m', eq, same⟩ := h.mem_expansionsOf m
    exact ne (same ▸ all q m' eq)

/-- A granted request is recorded. -/
theorem Records.grants {isNew : Bool} (h : t.Records rs)
    (free : ¬ t.refuses r) (g : t.Grants r t' isNew) :
    t'.Records (rs ++ [r]) where
  sound := h.sound.grants free g
  expansions_eq tag := by
    rw [g.expansionsOf_eq, given_append_singleton]
    by_cases here : r.rule.lhs = tag
    · subst here
      -- new to the table is what was not requested before
      have new : isNew = true ↔ r.rule.rhs.plain ∉ given rs r.rule.lhs := by
        rw [g.isNew_iff, ← mem_distinct, ← h.expansions_eq, List.mem_map]
        simp
      by_cases hn : isNew = true
      · simp [hn, distinct_append_singleton, new.1 hn, h.expansions_eq]
      · have old := Decidable.not_not.1 (mt new.2 hn)
        simp [hn, distinct_append_singleton, old, h.expansions_eq]
    · simp [here, h.expansions_eq]
  isPreterminal_iff tag := by
    rw [g.isPreterminal_eq, Bool.or_eq_true, h.isPreterminal_iff]
    simp [or_and_right, exists_or]

/-- **Runs of requests.**  A run from the empty table gets through just if
its requests agree, and the table then records them. -/
theorem serveAll_spec (rs : List Request) :
    ((empty.serveAll rs).1 = none ↔ Agree rs) ∧
      ((empty.serveAll rs).1 = none → (empty.serveAll rs).2.Records rs) := by
  induction rs using List.reverseRecOn with
  | nil =>
    refine ⟨?_, fun _ => .empty⟩
    simp [serveAll, Agree]
  | append_singleton rs r ih =>
    obtain ⟨ok_iff, records⟩ := ih
    rw [serveAll_append]
    rcases run : empty.serveAll rs with ⟨- | conflict, t⟩
    · rw [run] at ok_iff records
      have agree : Agree rs := ok_iff.1 rfl
      have h : t.Records rs := records rfl
      simp only [serveAll]
      rcases serve_spec h.sound r with ⟨refused, e⟩ | ⟨free, t', isNew, e, g⟩
      · simp only [e]
        have disagree := mt (h.refuses_iff agree).2 (not_not.2 refused)
        simpa using disagree
      · simp only [e]
        exact ⟨by simpa using (h.refuses_iff agree).1 free,
          fun _ => h.grants free g⟩
    · -- the run was refused before, and the requests disagreed before
      rw [run] at ok_iff
      have disagree : ¬ Agree rs := by simpa using ok_iff
      have disagree' : ¬ Agree (rs ++ [r]) :=
        fun h => disagree (h.mono fun p => List.mem_append_left _)
      simpa using disagree'

end RuleTable

end TreebankGrammar
