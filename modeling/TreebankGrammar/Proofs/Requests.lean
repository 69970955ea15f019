/-
TreebankGrammar/Proofs/Requests.lean

What one request does to a rule table.

A table changes only by requests: to insert a production, or to register a
preterminal with its production.  All there is to know about a table is the
list of expansions of every tag (`expansionsOf`) and which tags are
registered (`isPreterminal`), so a request is specified by what it does to
these two.

Design.  The two kinds of request look at different things, the first only
at registered tags and the second only at tags that are there.  In a *sound*
table (`Sound`: no tag without expansions, no expansion twice, registered
tags with one expansion) the difference disappears: a request is refused
just if its tag is registered, or to be registered, and has an expansion
other than the requested one (`refuses`).

Main results: a refused request changes nothing and tells the stored
expansions, any other is granted (`serve_spec`); granting appends the
expansion to its tag unless it is there (`Grants`), and keeps the table
sound (`Sound.grants`).
-/
import TreebankGrammar.RuleTable

namespace TreebankGrammar

/-! ### Requests -/

/-- A request to a table. -/
inductive Request where
  /-- To add a production. -/
  | insert (rule : Production)
  /-- To register a preterminal with its production. -/
  | register (rule : Production)
  deriving DecidableEq

namespace Request

/-- The production of a request. -/
def rule : Request → Production
  | insert rule => rule
  | register rule => rule

/-- Whether a request is to register a preterminal. -/
def registers : Request → Bool
  | insert _ => false
  | register _ => true

@[simp] theorem rule_insert (p : Production) : (insert p).rule = p := rfl

@[simp] theorem rule_register (p : Production) : (register p).rule = p := rfl

@[simp] theorem registers_insert (p : Production) :
    (insert p).registers = false := rfl

@[simp] theorem registers_register (p : Production) :
    (register p).registers = true := rfl

end Request

/-! ### Views of a block -/

namespace Block

theorem holds_iff {b : Block} {e : Expansion} :
    b.holds e = true ↔ ∃ f ∈ b.expansions, f.plain = e.plain := by
  simp [holds]

/-- Expansions that are all equal to one are a single one, if they are
distinct and there are any. -/
theorem eq_singleton_of_plain_eq {es : List Expansion} {e : Expansion}
    (ne : es ≠ []) (nodup : (es.map Expansion.plain).Nodup)
    (eq : ∀ f ∈ es, f.plain = e.plain) : ∃ f, es = [f] := by
  rcases es with - | ⟨f, - | ⟨g, fs⟩⟩
  · exact absurd rfl ne
  · exact ⟨f, rfl⟩
  · have same : f.plain = g.plain :=
      (eq f (by simp)).trans (eq g (by simp)).symm
    simp [same] at nodup

/-- Among distinct expansions one is the only one just if there is any and
all are equal to it. -/
theorem holdsOnly_iff {b : Block} {e : Expansion} (ne : b.expansions ≠ [])
    (nodup : (b.expansions.map Expansion.plain).Nodup) :
    b.holdsOnly e = true ↔ ∀ f ∈ b.expansions, f.plain = e.plain := by
  rw [holdsOnly, Bool.and_eq_true, beq_iff_eq, holds_iff]
  constructor
  · rintro ⟨one, g, mg, eq⟩ f mf
    obtain ⟨h, single⟩ := List.length_eq_one_iff.1 one
    rw [single, List.mem_singleton] at mf mg
    rw [mf, ← mg, eq]
  · intro all
    obtain ⟨f, single⟩ := eq_singleton_of_plain_eq ne nodup all
    have mf : f ∈ b.expansions := by
      rw [single]
      exact List.mem_singleton_self f
    refine ⟨?_, f, mf, all f mf⟩
    rw [single]
    rfl

end Block

namespace RuleTable

variable {t t' : RuleTable} {tag : Text} {b : Block}

/-! ### Views of a table -/

/-- The expansions of a tag; none if the table does not have the tag. -/
def expansionsOf (t : RuleTable) (tag : Text) : List Expansion :=
  (t.expansions? tag).getD []

theorem tag_of_find? (h : t.find? tag = some b) : b.tag = tag := by
  simpa using List.find?_some h

theorem expansionsOf_of_find? (h : t.find? tag = some b) :
    t.expansionsOf tag = b.expansions := by
  simp [expansionsOf, expansions?, h]

theorem isPreterminal_of_find? (h : t.find? tag = some b) :
    t.isPreterminal tag = b.registered := by
  simp [isPreterminal, h]

theorem expansionsOf_of_find?_none (h : t.find? tag = none) :
    t.expansionsOf tag = [] := by
  simp [expansionsOf, expansions?, h]

theorem isPreterminal_of_find?_none (h : t.find? tag = none) :
    t.isPreterminal tag = false := by
  simp [isPreterminal, h]

theorem expansionsOf_put (t : RuleTable) (b : Block) (tag : Text) :
    (t.put b).expansionsOf tag =
      if b.tag = tag then b.expansions else t.expansionsOf tag := by
  by_cases h : b.tag = tag <;> simp [expansionsOf, expansions?, find?_put, h]

theorem isPreterminal_put (t : RuleTable) (b : Block) (tag : Text) :
    (t.put b).isPreterminal tag =
      if b.tag = tag then b.registered else t.isPreterminal tag := by
  by_cases h : b.tag = tag <;> simp [isPreterminal, find?_put, h]

theorem expansionsOf_empty (tag : Text) : empty.expansionsOf tag = [] := rfl

theorem isPreterminal_empty (tag : Text) :
    empty.isPreterminal tag = false := rfl

/-- The blocks of a table are what looking for their tags finds. -/
theorem mem_blocks_iff : b ∈ t.blocks ↔ t.find? b.tag = some b := by
  constructor
  · intro h
    rw [find?, List.find?_eq_some_iff_append]
    obtain ⟨before, after, e⟩ := List.append_of_mem h
    refine ⟨by simp, before, after, e, fun c m => ?_⟩
    -- the blocks are ordered, so the tag of `b` is in no block before it
    have ordered := e ▸ t.ordered
    have lt : c.tag < b.tag :=
      (List.pairwise_append.1 ordered).2.2 c m b List.mem_cons_self
    simpa using fun eq : c.tag = b.tag => List.lt_irrefl _ (eq ▸ lt)
  · exact List.mem_of_find?_eq_some

/-! ### Soundness -/

/-- What holds of every table that requests make of the empty one. -/
structure Sound (t : RuleTable) : Prop where
  /-- No tag is without expansions. -/
  nonempty : ∀ {tag}, t.expansionsOf tag = [] → t.find? tag = none
  /-- No expansion stands twice for one tag. -/
  nodup : ∀ tag, ((t.expansionsOf tag).map Expansion.plain).Nodup
  /-- A registered tag has one expansion. -/
  single : ∀ {tag}, t.isPreterminal tag = true →
    ∃ e, t.expansionsOf tag = [e]

theorem Sound.empty : empty.Sound where
  nonempty _ := rfl
  nodup tag := by simp [expansionsOf_empty]
  single h := by simp [isPreterminal_empty] at h

/-- In a sound table an expansion is the only one of a block just if all are
equal to it. -/
theorem Sound.holdsOnly_iff (sound : t.Sound) (h : t.find? tag = some b)
    {e : Expansion} :
    b.holdsOnly e = true ↔ ∀ f ∈ t.expansionsOf tag, f.plain = e.plain := by
  have nodup := sound.nodup tag
  have ne : t.expansionsOf tag ≠ [] := by
    intro none
    rw [sound.nonempty none] at h
    cases h
  rw [expansionsOf_of_find? h] at nodup ne ⊢
  exact Block.holdsOnly_iff ne nodup

/-! ### One request -/

/-- Does a request. -/
def serve (t : RuleTable) : Request → Except Conflict (RuleTable × Bool)
  | .insert rule => t.insert rule
  | .register rule => t.insertPreterminal rule

/-- Whether a request is refused: its tag is registered or is to be, and
has an expansion other than the requested one. -/
def refuses (t : RuleTable) (r : Request) : Prop :=
  (r.registers = true ∨ t.isPreterminal r.rule.lhs = true) ∧
    ∃ e ∈ t.expansionsOf r.rule.lhs, e.plain ≠ r.rule.rhs.plain

/-- The conflict that a refused request for a production is. -/
def conflictOf (t : RuleTable) (rule : Production) : Conflict where
  preterminal := rule.lhs
  existing :=
    Text.join [' ', '|', ' ']
      ((t.expansionsOf rule.lhs).map Expansion.written)
  requested := rule.rhs.written

/-- What a granted request does: the expansion is appended to those of its
tag if it is new there, the tag becomes registered if the request says so,
and nothing else changes. -/
structure Grants (t : RuleTable) (r : Request) (t' : RuleTable)
    (isNew : Bool) : Prop where
  isNew_iff : isNew = true ↔
    ∀ e ∈ t.expansionsOf r.rule.lhs, e.plain ≠ r.rule.rhs.plain
  find?_eq_none : ∀ tag, t'.find? tag = none ↔
    r.rule.lhs ≠ tag ∧ t.find? tag = none
  expansionsOf_eq : ∀ tag, t'.expansionsOf tag =
    if r.rule.lhs = tag ∧ isNew = true then
      t.expansionsOf tag ++ [r.rule.rhs]
    else t.expansionsOf tag
  isPreterminal_eq : ∀ tag, t'.isPreterminal tag =
    (t.isPreterminal tag || (r.registers && r.rule.lhs == tag))

/-- A tag that the table does not have gets its first block. -/
theorem grants_put_of_find?_none {r : Request}
    (h : t.find? r.rule.lhs = none) :
    t.Grants r (t.put ⟨r.rule.lhs, [r.rule.rhs], r.registers⟩) true where
  isNew_iff := by simp [expansionsOf_of_find?_none h]
  find?_eq_none tag := by
    by_cases e : r.rule.lhs = tag <;> simp [find?_put, e]
  expansionsOf_eq tag := by
    rw [expansionsOf_put]
    by_cases e : r.rule.lhs = tag
    · simp [e, expansionsOf_of_find?_none (e ▸ h)]
    · simp [e]
  isPreterminal_eq tag := by
    rw [isPreterminal_put]
    by_cases e : r.rule.lhs = tag
    · simp [e, isPreterminal_of_find?_none (e ▸ h)]
    · simp [e]

/-- An expansion that its tag has already changes nothing by being
inserted. -/
theorem grants_self {rule : Production} (h : t.find? rule.lhs = some b)
    (holds : b.holds rule.rhs = true) : t.Grants (.insert rule) t false where
  isNew_iff := by
    rw [Request.rule_insert, expansionsOf_of_find? h]
    simpa using Block.holds_iff.1 holds
  find?_eq_none tag := by
    refine ⟨fun none => ⟨?_, none⟩, And.right⟩
    rintro rfl
    exact absurd (h.symm.trans none) (by simp)
  expansionsOf_eq tag := by simp
  isPreterminal_eq tag := by simp [Request.registers]

/-- A new expansion of a tag comes after those it has. -/
theorem grants_put_extended {rule : Production}
    (h : t.find? rule.lhs = some b) (new : b.holds rule.rhs = false) :
    t.Grants (.insert rule) (t.put (b.extended rule.rhs)) true where
  isNew_iff := by
    have none : ¬ ∃ f ∈ b.expansions, f.plain = rule.rhs.plain := by
      rw [← Block.holds_iff, new]
      exact Bool.false_ne_true
    rw [Request.rule_insert, expansionsOf_of_find? h]
    simpa using none
  find?_eq_none tag := by
    by_cases e : rule.lhs = tag <;>
      simp [find?_put, Block.extended, tag_of_find? h, e]
  expansionsOf_eq tag := by
    rw [expansionsOf_put, Block.extended, tag_of_find? h]
    by_cases e : rule.lhs = tag
    · simp [e, expansionsOf_of_find? (e ▸ h)]
    · simp [e]
  isPreterminal_eq tag := by
    rw [isPreterminal_put, Block.extended, tag_of_find? h]
    by_cases e : rule.lhs = tag
    · simp [e, isPreterminal_of_find? (e ▸ h)]
    · simp [e]

/-- What registering a block does: its tag has the registered block, and
every other tag the block it had. -/
theorem find?_register (h : t.find? tag = some b) (other : Text) :
    (t.register b).find? other =
      if tag = other then some { b with registered := true }
      else t.find? other := by
  rw [RuleTable.register]
  by_cases e : tag = other
  · split
    · -- a block that is registered already is its own registered form
      rename_i reg
      obtain ⟨name, es, r⟩ := b
      cases reg
      simpa [e] using e ▸ h
    · simp [find?_put, tag_of_find? h, e]
  · split <;> simp [find?_put, tag_of_find? h, e]

/-- A tag that has just the expansion it is to be registered with keeps
it. -/
theorem grants_register {rule : Production} (h : t.find? rule.lhs = some b)
    (only : b.holdsOnly rule.rhs = true) :
    t.Grants (.register rule) (t.register b) false := by
  have holds : b.holds rule.rhs = true := by
    simp only [Block.holdsOnly, Bool.and_eq_true] at only
    exact only.2
  have same := grants_self h holds
  have find? := find?_register h
  refine ⟨same.isNew_iff, fun tag => ?_, fun tag => ?_, fun tag => ?_⟩
  · by_cases e : rule.lhs = tag <;> simp [find?, e]
  · by_cases e : rule.lhs = tag
    · simp [expansionsOf, expansions?, find?, e, e ▸ h]
    · simp [expansionsOf, expansions?, find?, e]
  · by_cases e : rule.lhs = tag <;>
      simp [isPreterminal, find?, e]

theorem conflict_of_find? {rule : Production} (h : t.find? rule.lhs = some b) :
    b.conflict rule.rhs = t.conflictOf rule := by
  simp [Block.conflict, conflictOf, tag_of_find? h, expansionsOf_of_find? h]

theorem not_refuses_of_find?_none {r : Request}
    (h : t.find? r.rule.lhs = none) : ¬ t.refuses r := by
  rintro ⟨-, e, m, -⟩
  rw [expansionsOf_of_find?_none h] at m
  cases m

/-- What a refusal is in terms of the block of the tag. -/
theorem Sound.refuses_iff (sound : t.Sound) {r : Request}
    (h : t.find? r.rule.lhs = some b) :
    t.refuses r ↔ (r.registers = true ∨ b.registered = true) ∧
      b.holdsOnly r.rule.rhs = false := by
  have other : (∃ e ∈ t.expansionsOf r.rule.lhs,
      e.plain ≠ r.rule.rhs.plain) ↔ b.holdsOnly r.rule.rhs = false := by
    rw [← Bool.not_eq_true, sound.holdsOnly_iff h]
    simp
  rw [refuses, isPreterminal_of_find? h, other]

/-- **One request.**  A sound table refuses a request if its tag is
registered, or to be registered, and has another expansion; it grants all
others. -/
theorem serve_spec (sound : t.Sound) (r : Request) :
    (t.refuses r ∧ t.serve r = .error (t.conflictOf r.rule)) ∨
      (¬ t.refuses r ∧ ∃ t' isNew, t.serve r = .ok (t', isNew) ∧
        t.Grants r t' isNew) := by
  rcases h : t.find? r.rule.lhs with - | b
  · refine .inr ⟨not_refuses_of_find?_none h, _, true, ?_,
      grants_put_of_find?_none h⟩
    cases r <;> simp_all [serve, insert, insertPreterminal]
  · -- a tag with a block: the two kinds of request look at it differently
    rw [sound.refuses_iff h]
    cases r with
    | insert rule =>
      have conflict := conflict_of_find? h
      simp only [Request.rule_insert, Request.registers_insert,
        Bool.false_eq_true, false_or] at h conflict ⊢
      by_cases refused : b.registered = true ∧ b.holdsOnly rule.rhs = false
      · left
        refine ⟨refused, ?_⟩
        simp [serve, insert, h, refused, conflict]
      · right
        refine ⟨refused, ?_⟩
        have free : (b.registered && !b.holdsOnly rule.rhs) = false := by
          simpa using refused
        rcases holds : b.holds rule.rhs with - | -
        · refine ⟨_, true, ?_, grants_put_extended h holds⟩
          simp [serve, insert, h, free, holds]
        · refine ⟨_, false, ?_, grants_self h holds⟩
          simp [serve, insert, h, free, holds]
    | register rule =>
      have conflict := conflict_of_find? h
      simp only [Request.rule_register, Request.registers_register,
        true_or, true_and] at h conflict ⊢
      rcases only : b.holdsOnly rule.rhs with - | -
      · left
        refine ⟨rfl, ?_⟩
        simp [serve, insertPreterminal, h, only, conflict]
      · right
        refine ⟨Bool.noConfusion, _, false, ?_, grants_register h only⟩
        simp [serve, insertPreterminal, h, only]

/-! ### What a granted request leaves -/

section Granted

variable {r : Request} {isNew : Bool}

/-- Registered tags stay registered. -/
theorem Grants.mono (g : t.Grants r t' isNew)
    (h : t.isPreterminal tag = true) : t'.isPreterminal tag = true := by
  rw [g.isPreterminal_eq, h, Bool.true_or]

/-- A tag that is to be registered is so afterwards. -/
theorem Grants.registers (g : t.Grants r t' isNew)
    (h : r.registers = true) : t'.isPreterminal r.rule.lhs = true := by
  rw [g.isPreterminal_eq, h]
  simp

/-- An expansion after a request is an old one or the requested one. -/
theorem Grants.mem_expansionsOf (g : t.Grants r t' isNew) {e : Expansion}
    (m : e ∈ t'.expansionsOf tag) :
    e ∈ t.expansionsOf tag ∨ e = r.rule.rhs := by
  rw [g.expansionsOf_eq] at m
  split at m
  · rcases List.mem_append.1 m with old | last
    · exact .inl old
    · exact .inr (List.mem_singleton.1 last)
  · exact .inl m

/-- Expansions stay, in their order and in front of new ones. -/
theorem Grants.expansionsOf_prefix (g : t.Grants r t' isNew) (tag : Text) :
    t.expansionsOf tag <+: t'.expansionsOf tag := by
  rw [g.expansionsOf_eq]
  split
  · exact List.prefix_append _ _
  · exact List.prefix_rfl

/-- The requested expansion is there afterwards. -/
theorem Grants.exists_expansion (g : t.Grants r t' isNew) :
    ∃ e ∈ t'.expansionsOf r.rule.lhs, e.plain = r.rule.rhs.plain := by
  by_cases new : isNew = true
  · refine ⟨r.rule.rhs, ?_, rfl⟩
    rw [g.expansionsOf_eq, if_pos ⟨rfl, new⟩]
    simp
  · have old := mt g.isNew_iff.2 new
    simp only [Classical.not_forall, Classical.not_not] at old
    obtain ⟨e, m, same⟩ := old
    exact ⟨e, (g.expansionsOf_prefix _).subset m, same⟩

/-- Granting a request keeps a table sound. -/
theorem Sound.grants (sound : t.Sound) (free : ¬ t.refuses r)
    (h : t.Grants r t' isNew) : t'.Sound where
  nonempty {tag} none := by
    rw [h.expansionsOf_eq] at none
    split at none
    · simp at none
    · rename_i old
      refine (h.find?_eq_none tag).2 ⟨?_, sound.nonempty none⟩
      rintro rfl
      exact old ⟨rfl, h.isNew_iff.2 (by simp [none])⟩
  nodup tag := by
    rw [h.expansionsOf_eq]
    split
    · rename_i new
      rw [List.map_append, List.nodup_append]
      refine ⟨sound.nodup tag, by simp, ?_⟩
      intro p m q m'
      obtain ⟨e, me, rfl⟩ := List.mem_map.1 m
      rw [List.mem_singleton.1 m']
      exact h.isNew_iff.1 new.2 e (new.1 ▸ me)
    · exact sound.nodup tag
  single {tag} reg := by
    rw [h.isPreterminal_eq, Bool.or_eq_true, Bool.and_eq_true,
      beq_iff_eq] at reg
    rw [h.expansionsOf_eq]
    by_cases here : r.rule.lhs = tag
    · -- the tag of a granted request has at most the requested expansion
      subst here
      have eq : ∀ e ∈ t.expansionsOf r.rule.lhs,
          e.plain = r.rule.rhs.plain := by
        intro e m
        refine Decidable.byContradiction fun ne => free ⟨?_, e, m, ne⟩
        rcases reg with reg | reg
        · exact .inr reg
        · exact .inl reg.1
      split
      · rename_i new
        have none : t.expansionsOf r.rule.lhs = [] :=
          List.eq_nil_iff_forall_not_mem.2 fun e m =>
            h.isNew_iff.1 new.2 e m (eq e m)
        exact ⟨r.rule.rhs, by simp [none]⟩
      · rename_i old
        refine Block.eq_singleton_of_plain_eq ?_ (sound.nodup _) eq
        intro none
        exact old ⟨rfl, h.isNew_iff.2 (by simp [none])⟩
    · simp only [here, false_and, if_false]
      rcases reg with reg | reg
      · exact sound.single reg
      · exact absurd reg.2 here

/-- A request that a sound table answers without a conflict is granted. -/
theorem Sound.grants_of_serve (sound : t.Sound)
    (ok : t.serve r = .ok (t', isNew)) : t'.Sound ∧ t.Grants r t' isNew := by
  rcases serve_spec sound r with ⟨-, e⟩ | ⟨free, t'', isNew', e, g⟩
  · cases ok.symm.trans e
  · obtain ⟨rfl, rfl⟩ : t' = t'' ∧ isNew = isNew' := by
      simpa using ok.symm.trans e
    exact ⟨sound.grants free g, g⟩

end Granted

end RuleTable

end TreebankGrammar
