/-
TreebankGrammar/Proofs/LineOrder.lean

The order of lines and how often they occur.

Two listings with the same set of lines make the same requests, in some
order and some multiplicity.  Whether requests agree is a matter of their
set, so one listing is converted just if the other is.  The tables at the end
have the same tags, and for every tag the same expansions up to their order
and up to the kinds of symbols, which no line of the rule file shows.

Design.  Tables are compared block by block (`forall₂_blocks`): as the tags
stand in order, tables with the same tags have them at the same places.

Main result: `convert_of_same_lines`.
-/
import Mathlib.Data.List.Forall2
import TreebankGrammar.Proofs.Conversion

namespace TreebankGrammar

/-! ### Requests -/

/-- The same lines make the same requests. -/
theorem mem_requestsOf_of_same_lines {a b : Bytes}
    (same : ∀ text, text ∈ a.lines ↔ text ∈ b.lines) (r : Request) :
    r ∈ requestsOf a.parsedLines ↔ r ∈ requestsOf b.parsedLines := by
  simp only [requestsOf, Bytes.parsedLines, List.mem_flatMap,
    List.mem_filterMap, same]

/-- The same lines are accepted or refused. -/
theorem accepts_of_same_lines {a b : Bytes}
    (same : ∀ text, text ∈ a.lines ↔ text ∈ b.lines) (h : Accepts a) :
    Accepts b := by
  rw [accepts_iff_agree] at h ⊢
  obtain ⟨readable, agree⟩ := h
  refine ⟨fun text m => readable text ((same text).2 m), ?_⟩
  exact agree.mono fun r => (mem_requestsOf_of_same_lines same r).2

/-! ### Tables -/

section Tables

variable {t u : RuleTable} {rs qs : List Request} {b : Block} {tag : Text}

/-- The tags of a table are those that requests are for. -/
theorem RuleTable.Records.mem_tags (h : t.Records rs) :
    tag ∈ t.blocks.map Block.tag ↔ ∃ r ∈ rs, r.rule.lhs = tag := by
  constructor
  · -- a block of a sound table has an expansion, which was requested
    intro m
    obtain ⟨b, mb, rfl⟩ := List.mem_map.1 m
    have found := RuleTable.mem_blocks_iff.1 mb
    have some : t.expansionsOf b.tag ≠ [] := by
      intro none
      rw [h.sound.nonempty none] at found
      cases found
    obtain ⟨e, me⟩ := List.exists_mem_of_ne_nil _ some
    obtain ⟨r, mr, eq, -⟩ := h.mem_expansionsOf me
    exact ⟨r, mr, eq⟩
  · rintro ⟨r, mr, rfl⟩
    obtain ⟨e, me, -⟩ := h.exists_expansion mr
    rcases found : t.find? r.rule.lhs with - | b
    · simp [RuleTable.expansionsOf_of_find?_none found] at me
    · rw [← RuleTable.tag_of_find? found]
      exact List.mem_map_of_mem (List.mem_of_find?_eq_some found)

/-- Texts stand in order in one way only. -/
theorem eq_of_pairwise_lt {xs ys : List Text} (hx : xs.Pairwise (· < ·))
    (hy : ys.Pairwise (· < ·)) (same : ∀ x, x ∈ xs ↔ x ∈ ys) : xs = ys := by
  have nodup : ∀ {zs : List Text}, zs.Pairwise (· < ·) → zs.Nodup := by
    intro zs hz
    refine hz.imp ?_
    rintro x y lt rfl
    exact List.lt_irrefl x lt
  refine ((List.perm_ext_iff_of_nodup (nodup hx) (nodup hy)).2
    same).eq_of_pairwise ?_ hx hy
  intro x y _ _ lt gt
  exact absurd (List.lt_trans lt gt) (List.lt_irrefl x)

theorem RuleTable.pairwise_tags (t : RuleTable) :
    (t.blocks.map Block.tag).Pairwise (· < ·) :=
  List.pairwise_map.2 t.ordered

/-- Tables that record the same requests have the same tags in the same
order. -/
theorem tags_eq (ht : t.Records rs) (hu : u.Records qs)
    (same : ∀ r, r ∈ rs ↔ r ∈ qs) :
    t.blocks.map Block.tag = u.blocks.map Block.tag := by
  refine eq_of_pairwise_lt t.pairwise_tags u.pairwise_tags fun tag => ?_
  rw [ht.mem_tags, hu.mem_tags]
  simp only [same]

/-- Tables that record the same requests have the same expansions of every
tag, up to their order. -/
theorem expansionsOf_perm (ht : t.Records rs) (hu : u.Records qs)
    (same : ∀ r, r ∈ rs ↔ r ∈ qs) (tag : Text) :
    ((t.expansionsOf tag).map Expansion.plain).Perm
      ((u.expansionsOf tag).map Expansion.plain) := by
  rw [List.perm_ext_iff_of_nodup (ht.sound.nodup tag) (hu.sound.nodup tag)]
  intro e
  rw [ht.expansions_eq, hu.expansions_eq, mem_distinct, mem_distinct,
    mem_given, mem_given]
  simp only [same]

/-! ### Blocks -/

/-- The lines of a block do not show the kinds of symbols. -/
theorem Block.ruleLines_eq_map_plain (b : Block) :
    b.ruleLines = (b.expansions.map Expansion.plain).map
      (ruleLine b.tag (uniformProbability b.expansions.length).scientific) := by
  rw [ruleLines, List.map_map]
  refine List.map_congr_left fun e _ => ?_
  rw [Function.comp_apply, ruleLine, ruleLine, Expansion.written_plain]

/-- Whether two blocks are of one tag and have the same lines, up to their
order. -/
def Block.Alike (x y : Block) : Prop :=
  x.tag = y.tag ∧ x.ruleLines.Perm y.ruleLines

theorem Block.alike_of_perm {x y : Block} (tag : x.tag = y.tag)
    (perm : (x.expansions.map Expansion.plain).Perm
      (y.expansions.map Expansion.plain)) :
    x.Alike y := by
  refine ⟨tag, ?_⟩
  have length : x.expansions.length = y.expansions.length := by
    simpa using perm.length_eq
  rw [x.ruleLines_eq_map_plain, y.ruleLines_eq_map_plain, tag, length]
  exact perm.map _

theorem forall₂_of_map_eq {α β : Type} {f : α → β} {R : α → α → Prop}
    {xs ys : List α} (eq : xs.map f = ys.map f)
    (h : ∀ x ∈ xs, ∀ y ∈ ys, f x = f y → R x y) : List.Forall₂ R xs ys := by
  induction xs generalizing ys with
  | nil =>
    obtain rfl : ys = [] := by simpa using eq.symm
    exact .nil
  | cons x xs ih =>
    cases ys with
    | nil => cases eq
    | cons y ys =>
      obtain ⟨head, tail⟩ := List.cons_eq_cons.1 eq
      refine .cons (h x (by simp) y (by simp) head) (ih tail ?_)
      exact fun z mz w mw => h z (List.mem_cons_of_mem _ mz) w
        (List.mem_cons_of_mem _ mw)

/-- **Tables that record the same requests** have the same blocks, up to the
order of the lines within each. -/
theorem forall₂_blocks (ht : t.Records rs) (hu : u.Records qs)
    (same : ∀ r, r ∈ rs ↔ r ∈ qs) :
    List.Forall₂ Block.Alike t.blocks u.blocks := by
  refine forall₂_of_map_eq (tags_eq ht hu same) ?_
  intro x mx y my tag
  refine Block.alike_of_perm tag ?_
  have perm := expansionsOf_perm ht hu same x.tag
  have hx := RuleTable.expansionsOf_of_find? (RuleTable.mem_blocks_iff.1 mx)
  have hy := RuleTable.expansionsOf_of_find? (RuleTable.mem_blocks_iff.1 my)
  rwa [hx, tag, hy] at perm

/-- Blocks that are alike one by one have the same lines together, up to
their order. -/
theorem flatMap_ruleLines_perm {xs ys : List Block}
    (h : List.Forall₂ Block.Alike xs ys) :
    (xs.flatMap Block.ruleLines).Perm (ys.flatMap Block.ruleLines) := by
  induction h with
  | nil => exact .nil
  | cons head _ ih =>
    rw [List.flatMap_cons, List.flatMap_cons]
    exact head.2.append ih

end Tables

/-! ### Listings -/

/-- **The order of lines and how often they occur** make no difference to
whether a listing is converted and to how many rules are written.  The rule
files have the same tags in the same order, and for every tag the same lines,
up to their order. -/
theorem convert_of_same_lines (a b : Bytes)
    (same : ∀ text, text ∈ a.lines ↔ text ∈ b.lines) :
    ((∃ n, (convert a none).result = .ok n) ↔
      ∃ n, (convert b none).result = .ok n) ∧
    ∀ m n, (convert a none).result = .ok m →
      (convert b none).result = .ok n →
        m = n ∧
        (convert a none).output =
          ((finalTable a).blocks.flatMap Block.ruleLines).flatMap
            Text.encode ∧
        (convert b none).output =
          ((finalTable b).blocks.flatMap Block.ruleLines).flatMap
            Text.encode ∧
        List.Forall₂ Block.Alike (finalTable a).blocks
          (finalTable b).blocks := by
  constructor
  · constructor
    · exact accepts_of_same_lines same
    · exact accepts_of_same_lines fun text => (same text).symm
  · intro m n hm hn
    have result_a := convert_of_accepts ⟨m, hm⟩
    have result_b := convert_of_accepts ⟨n, hn⟩
    have blocks := forall₂_blocks (records_finalTable ⟨m, hm⟩)
      (records_finalTable ⟨n, hn⟩) (mem_requestsOf_of_same_lines same)
    have length := (flatMap_ruleLines_perm blocks).length_eq
    refine ⟨?_, result_a.2, result_b.2, blocks⟩
    calc m
        = (finalTable a).ruleLines.length :=
          (Except.ok.inj (result_a.1.symm.trans hm)).symm
      _ = (finalTable b).ruleLines.length := length
      _ = n := Except.ok.inj (result_b.1.symm.trans hn)

/-- Two lines in both orders, one of them repeated.  They give the tag one
expansion, with a preterminal in one order and a nonterminal in the other. -/
theorem convert_reordered_lines :
    (finalTable (Text.encode "S --> x B\nS --> P_X B\n".toList)).blocks ≠
        (finalTable (Text.encode
          "S --> P_X B\nS --> x B\nS --> P_X B\n".toList)).blocks ∧
      List.Forall₂ Block.Alike
        (finalTable (Text.encode "S --> x B\nS --> P_X B\n".toList)).blocks
        (finalTable (Text.encode
          "S --> P_X B\nS --> x B\nS --> P_X B\n".toList)).blocks := by
  have same : ∀ text,
      text ∈ Bytes.lines (Text.encode "S --> x B\nS --> P_X B\n".toList) ↔
        text ∈ Bytes.lines (Text.encode
          "S --> P_X B\nS --> x B\nS --> P_X B\n".toList) := by
    have left : Bytes.lines
        (Text.encode "S --> x B\nS --> P_X B\n".toList) =
          [some "S --> x B".toList, some "S --> P_X B".toList] := by
      decide +kernel
    have right : Bytes.lines (Text.encode
        "S --> P_X B\nS --> x B\nS --> P_X B\n".toList) =
          [some "S --> P_X B".toList, some "S --> x B".toList,
            some "S --> P_X B".toList] := by
      decide +kernel
    intro text
    rw [left, right]
    simp only [List.mem_cons, List.not_mem_nil, or_false]
    constructor
    · rintro (h | h)
      · exact .inr (.inl h)
      · exact .inl h
    · rintro (h | h | h)
      · exact .inr h
      · exact .inl h
      · exact .inr h
  refine ⟨by decide +kernel, ?_⟩
  exact ((convert_of_same_lines _ _ same).2 2 2 (by decide +kernel)
    (by decide +kernel)).2.2.2

end TreebankGrammar
