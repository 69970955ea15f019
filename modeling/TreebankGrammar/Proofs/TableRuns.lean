/-
TreebankGrammar/Proofs/TableRuns.lean

What every request does to every table.

A table is reached by requests to the empty one, some of them granted and some
refused, for any productions at all.  `StepSpec` says of a table when it
refuses a request, what the refusal tells, and what a granted request changes.
`StateSpec` says what a table is, given the requests that led to it: which
tags it has, and how many productions.

Design.  Both are stated with the expansions of a tag as the table shows them
(`expansions?`) and with the answers to requests.  What a request does is
known of every sound table (`serve_spec`), so the first needs no induction.
For the second, the number of productions is a sum over tags
(`ruleCount_eq_sum`), of which a request changes one summand.

Main result: `attemptAll_spec`.
-/
import Mathlib.Algebra.BigOperators.Group.Finset.Piecewise
import TreebankGrammar.Proofs.Permanence

namespace TreebankGrammar

namespace RuleTable

variable {t t' : RuleTable} {r : Request} {tag : Text} {isNew : Bool}

/-! ### One request -/

/-- What a granted request changes: a new expansion becomes the last one of
its tag, otherwise all expansions stay as they are; other tags keep theirs;
and the tag is registered afterwards if the request says so. -/
structure Changes (t : RuleTable) (r : Request) (t' : RuleTable)
    (isNew : Bool) : Prop where
  isNew_iff : isNew = true ↔ ¬ ∃ es, t.expansions? r.rule.lhs = some es ∧
    ∃ e ∈ es, e.plain = r.rule.rhs.plain
  appended : isNew = true → t'.expansions? r.rule.lhs =
    some ((t.expansions? r.rule.lhs).getD [] ++ [r.rule.rhs])
  kept : isNew = false → ∀ tag, t'.expansions? tag = t.expansions? tag
  others : ∀ tag, tag ≠ r.rule.lhs → t'.expansions? tag = t.expansions? tag
  registered : ∀ tag, t'.isPreterminal tag = true ↔
    t.isPreterminal tag = true ∨ r.registers = true ∧ tag = r.rule.lhs

/-- What requests do to a table. -/
structure StepSpec (t : RuleTable) : Prop where
  /-- An insertion fails if its tag is a registered preterminal with another
  expansion. -/
  insert_fails_iff : ∀ rule, (∃ c, t.insert rule = .error c) ↔
    t.isPreterminal rule.lhs = true ∧
      ∃ e, t.expansions? rule.lhs = some [e] ∧ e.plain ≠ rule.rhs.plain
  /-- A registration fails if its tag has expansions and they are not just
  the one it brings. -/
  insertPreterminal_fails_iff : ∀ rule,
    (∃ c, t.insertPreterminal rule = .error c) ↔
      ∃ es, t.expansions? rule.lhs = some es ∧
        ¬ ∃ e, es = [e] ∧ e.plain = rule.rhs.plain
  /-- A failure leaves the table as it is and tells the stored expansions. -/
  failed : ∀ r c, t.serve r = .error c →
    t.attempt r = t ∧ ∃ es, t.expansions? r.rule.lhs = some es ∧
      c = ⟨r.rule.lhs, Text.join [' ', '|', ' '] (es.map Expansion.written),
        r.rule.rhs.written⟩
  /-- A success changes the table as said. -/
  granted : ∀ r t' isNew, t.serve r = .ok (t', isNew) →
    t.attempt r = t' ∧ t.Changes r t' isNew

/-- In a sound table, a tag has the expansions that are stored for it if there
are any. -/
theorem Sound.expansions?_eq_some_iff (sound : t.Sound)
    {es : List Expansion} :
    t.expansions? tag = some es ↔ es ≠ [] ∧ t.expansionsOf tag = es := by
  constructor
  · intro h
    have stored : t.expansionsOf tag = es := by
      rw [expansionsOf, h]
      rfl
    refine ⟨?_, stored⟩
    rintro rfl
    rw [expansions?, sound.nonempty stored] at h
    cases h
  · rintro ⟨ne, rfl⟩
    rcases h : t.expansions? tag with - | es
    · exact absurd (by rw [expansionsOf, h]; rfl) ne
    · rw [expansionsOf, h]
      rfl

theorem Sound.expansions?_congr (sound : t.Sound) (sound' : t'.Sound)
    (eq : t.expansionsOf tag = t'.expansionsOf tag) :
    t.expansions? tag = t'.expansions? tag := by
  refine Option.ext fun es => ?_
  rw [sound.expansions?_eq_some_iff, sound'.expansions?_eq_some_iff, eq]

/-- An expansion that is stored for a tag, by what the table shows. -/
theorem Sound.exists_expansion_iff (sound : t.Sound)
    {p : Expansion → Prop} :
    (∃ e ∈ t.expansionsOf tag, p e) ↔
      ∃ es, t.expansions? tag = some es ∧ ∃ e ∈ es, p e := by
  constructor
  · rintro ⟨e, m, h⟩
    exact ⟨_, sound.expansions?_eq_some_iff.2 ⟨List.ne_nil_of_mem m, rfl⟩,
      e, m, h⟩
  · rintro ⟨es, shown, e, m, h⟩
    obtain ⟨-, rfl⟩ := sound.expansions?_eq_some_iff.1 shown
    exact ⟨e, m, h⟩

theorem Sound.fails_iff (sound : t.Sound) (r : Request) :
    (∃ c, t.serve r = .error c) ↔ t.refuses r := by
  rcases serve_spec sound r with ⟨refused, e⟩ | ⟨free, t', isNew, e, -⟩
  · exact iff_of_true ⟨_, e⟩ refused
  · refine iff_of_false ?_ free
    rintro ⟨c, failed⟩
    cases failed.symm.trans e

/-- Granting a request changes what the table shows as said. -/
theorem Grants.changes (g : t.Grants r t' isNew) (sound : t.Sound)
    (sound' : t'.Sound) : t.Changes r t' isNew where
  isNew_iff := by
    rw [g.isNew_iff, ← sound.exists_expansion_iff]
    simp only [not_exists, not_and, ne_eq]
  appended new := by
    rw [sound'.expansions?_eq_some_iff, g.expansionsOf_eq, if_pos ⟨rfl, new⟩]
    exact ⟨List.append_ne_nil_of_right_ne_nil _ (List.cons_ne_nil _ _), rfl⟩
  kept old tag := by
    refine sound'.expansions?_congr sound ?_
    rw [g.expansionsOf_eq, old, if_neg (by simp)]
  others tag other := by
    refine sound'.expansions?_congr sound ?_
    rw [g.expansionsOf_eq, if_neg fun here => other here.1.symm]
  registered tag := by
    rw [g.isPreterminal_eq, Bool.or_eq_true, Bool.and_eq_true, beq_iff_eq,
      eq_comm (a := tag)]

/-- **What a request does** to a sound table. -/
theorem Sound.stepSpec (sound : t.Sound) : t.StepSpec where
  insert_fails_iff rule := by
    rw [show (∃ c, t.insert rule = .error c) ↔ t.refuses (.insert rule) from
      sound.fails_iff (.insert rule)]
    constructor
    · rintro ⟨reg, e, m, ne⟩
      have reg : t.isPreterminal rule.lhs = true :=
        reg.resolve_left Bool.false_ne_true
      obtain ⟨f, single⟩ := sound.single reg
      rw [Request.rule_insert, single, List.mem_singleton] at m
      exact ⟨reg, f, expansions?_eq_singleton single, m ▸ ne⟩
    · rintro ⟨reg, e, shown, ne⟩
      exact ⟨.inr reg, sound.exists_expansion_iff.2
        ⟨_, shown, e, List.mem_singleton_self e, ne⟩⟩
  insertPreterminal_fails_iff rule := by
    rw [show (∃ c, t.insertPreterminal rule = .error c) ↔
      t.refuses (.register rule) from sound.fails_iff (.register rule)]
    constructor
    · rintro ⟨-, other⟩
      obtain ⟨es, shown, e, m, ne⟩ := sound.exists_expansion_iff.1 other
      refine ⟨es, shown, ?_⟩
      rintro ⟨f, rfl, same⟩
      exact ne (List.mem_singleton.1 m ▸ same)
    · rintro ⟨es, shown, other⟩
      obtain ⟨some, stored⟩ := sound.expansions?_eq_some_iff.1 shown
      refine ⟨.inl rfl, Decidable.byContradiction fun none => other ?_⟩
      -- if all expansions were equal to this one, there would be only one
      have all : ∀ e ∈ es, e.plain = rule.rhs.plain := by
        intro e m
        refine Decidable.byContradiction fun ne => none ?_
        exact ⟨e, stored ▸ m, ne⟩
      obtain ⟨f, rfl⟩ :=
        Block.eq_singleton_of_plain_eq some (stored ▸ sound.nodup _) all
      exact ⟨f, rfl, all f (List.mem_singleton_self f)⟩
  failed r c failed := by
    have refused := (sound.fails_iff r).1 ⟨c, failed⟩
    refine ⟨by rw [attempt, failed], t.expansionsOf r.rule.lhs, ?_, ?_⟩
    · obtain ⟨-, e, m, -⟩ := refused
      exact sound.expansions?_eq_some_iff.2 ⟨List.ne_nil_of_mem m, rfl⟩
    · exact Except.error.inj
        (failed.symm.trans (sound.serve_of_refuses refused))
  granted r t' isNew ok := by
    refine ⟨by rw [attempt, ok], ?_⟩
    obtain ⟨sound', g⟩ := sound.grants_of_serve ok
    exact g.changes sound sound'

/-! ### Counts -/

/-- The tags of a table. -/
def tags (t : RuleTable) : List Text := t.blocks.map Block.tag

theorem nodup_tags (t : RuleTable) : t.tags.Nodup := by
  refine List.pairwise_map.2 (t.ordered.imp fun lt eq => ?_)
  exact List.lt_irrefl _ (eq ▸ lt)

theorem mem_tags : tag ∈ t.tags ↔ t.find? tag ≠ none := by
  rw [tags, List.mem_map, Option.ne_none_iff_exists']
  constructor
  · rintro ⟨b, m, rfl⟩
    exact ⟨b, mem_blocks_iff.1 m⟩
  · rintro ⟨b, found⟩
    exact ⟨b, List.mem_of_find?_eq_some found, tag_of_find? found⟩

/-- A table has as many tags as there are in a list of them, each once. -/
theorem size_eq_length {texts : List Text} (nodup : texts.Nodup)
    (mem : ∀ tag, tag ∈ texts ↔ t.find? tag ≠ none) :
    t.size = texts.length := by
  have same : t.tags.Perm texts :=
    (List.perm_ext_iff_of_nodup t.nodup_tags nodup).2 fun tag =>
      mem_tags.trans (mem tag).symm
  rw [size, ← same.length_eq, tags, List.length_map]

/-- The number of productions is that of the expansions of all tags. -/
theorem ruleCount_eq_sum {s : Finset Text} (all : ∀ tag ∈ t.tags, tag ∈ s) :
    t.ruleCount = ∑ tag ∈ s, (t.expansionsOf tag).length := by
  have blocks : t.ruleCount =
      (t.tags.map fun tag => (t.expansionsOf tag).length).sum := by
    rw [ruleCount, List.length_flatMap, tags, List.map_map]
    refine congrArg List.sum (List.map_congr_left fun b m => ?_)
    rw [Function.comp_apply, expansionsOf_of_find? (mem_blocks_iff.1 m)]
  rw [blocks, ← List.sum_toFinset _ t.nodup_tags]
  -- a tag that the table does not have adds nothing
  refine Finset.sum_subset (fun tag m => all tag (List.mem_toFinset.1 m))
    fun tag _ absent => ?_
  have none : t.find? tag = none :=
    Decidable.not_not.1 fun found =>
      absent (List.mem_toFinset.2 (mem_tags.2 found))
  rw [expansionsOf_of_find?_none none]
  rfl

/-- A granted request adds a production if it is a new one. -/
theorem Grants.ruleCount_eq (g : t.Grants r t' isNew) :
    t'.ruleCount = t.ruleCount + if isNew = true then 1 else 0 := by
  have all : ∀ tag ∈ t.tags, tag ∈ (r.rule.lhs :: t.tags).toFinset :=
    fun tag m => List.mem_toFinset.2 (List.mem_cons_of_mem _ m)
  have all' : ∀ tag ∈ t'.tags, tag ∈ (r.rule.lhs :: t.tags).toFinset := by
    intro tag m
    by_cases same : r.rule.lhs = tag
    · exact List.mem_toFinset.2 (same ▸ List.mem_cons_self)
    · refine all tag (mem_tags.2 fun none => mem_tags.1 m ?_)
      exact (g.find?_eq_none tag).2 ⟨same, none⟩
  have each : ∀ tag, (t'.expansionsOf tag).length =
      (t.expansionsOf tag).length +
        if r.rule.lhs = tag ∧ isNew = true then 1 else 0 := by
    intro tag
    rw [g.expansionsOf_eq]
    split
    · rw [List.length_append, List.length_singleton]
    · rfl
  rw [ruleCount_eq_sum all, ruleCount_eq_sum all']
  simp only [each, Finset.sum_add_distrib]
  cases isNew with
  | false => simp
  | true =>
    -- one tag of the sum is that of the request
    have here : r.rule.lhs ∈ (r.rule.lhs :: t.tags).toFinset :=
      List.mem_toFinset.2 List.mem_cons_self
    simp only [and_true, if_true, Finset.sum_ite_eq, if_pos here]

/-! ### Runs -/

/-- The answers to requests that are made one after the other, each a conflict
or whether the production is new. -/
def answers (t : RuleTable) : List Request → List (Except Conflict Bool)
  | [] => []
  | r :: rs => (t.serve r).map Prod.snd :: (t.attempt r).answers rs

theorem attemptAll_append_singleton (t : RuleTable) (rs : List Request)
    (r : Request) : t.attemptAll (rs ++ [r]) = (t.attemptAll rs).attempt r :=
  List.foldl_append

theorem answers_append_singleton (t : RuleTable) (rs : List Request)
    (r : Request) :
    t.answers (rs ++ [r]) =
      t.answers rs ++ [((t.attemptAll rs).serve r).map Prod.snd] := by
  induction rs generalizing t with
  | nil => rfl
  | cons q rs ih =>
    rw [List.cons_append, answers, ih]
    rfl

/-- A request that is refused is for a tag that the table has. -/
theorem find?_ne_none_of_refuses (h : t.refuses r) :
    t.find? r.rule.lhs ≠ none :=
  fun none => not_refuses_of_find?_none none h

/-- After a request the table has the tag of the request, be it refused or
not, and no further ones. -/
theorem Sound.find?_attempt (sound : t.Sound) (r : Request) (tag : Text) :
    (t.attempt r).find? tag = none ↔
      r.rule.lhs ≠ tag ∧ t.find? tag = none := by
  rw [attempt]
  rcases serve_spec sound r with ⟨refused, e⟩ | ⟨-, t', isNew, e, g⟩
  · rw [e]
    refine ⟨fun none => ⟨?_, none⟩, And.right⟩
    rintro rfl
    exact find?_ne_none_of_refuses refused none
  · rw [e]
    exact g.find?_eq_none tag

/-- A request adds a production if the answer says so. -/
theorem Sound.ruleCount_attempt (sound : t.Sound) (r : Request) :
    (t.attempt r).ruleCount =
      t.ruleCount + [(t.serve r).map Prod.snd].count (.ok true) := by
  rw [attempt]
  rcases serve_spec sound r with ⟨-, e⟩ | ⟨-, t', isNew, e, g⟩
  · rw [e]
    rfl
  · rw [e]
    show t'.ruleCount = _
    rw [g.ruleCount_eq]
    cases isNew <;> rfl

/-- The tags of a table are those of the requests that led to it. -/
theorem find?_attemptAll (before : List Request) (tag : Text) :
    (empty.attemptAll before).find? tag = none ↔
      ∀ r ∈ before, r.rule.lhs ≠ tag := by
  induction before using List.reverseRecOn with
  | nil => simp [attemptAll, find?, empty]
  | append_singleton before r ih =>
    have sound := (attemptAll_grows .empty before).1
    rw [attemptAll_append_singleton, sound.find?_attempt, ih]
    simp [or_imp, forall_and, and_comm]

/-- The productions of a table are as many as the answers that said so. -/
theorem ruleCount_attemptAll (before : List Request) :
    (empty.attemptAll before).ruleCount =
      (empty.answers before).count (.ok true) := by
  induction before using List.reverseRecOn with
  | nil => rfl
  | append_singleton before r ih =>
    have sound := (attemptAll_grows .empty before).1
    rw [attemptAll_append_singleton, sound.ruleCount_attempt, ih,
      answers_append_singleton, List.count_append]

/-- What a table is after requests to the empty one: every tag has expansions,
no two of them equal; the tags are those of the requests; and there are as
many productions as requests were answered by "new". -/
structure StateSpec (t : RuleTable) (before : List Request) : Prop where
  nonempty : ∀ tag es, t.expansions? tag = some es → es ≠ []
  unequal : ∀ tag es, t.expansions? tag = some es →
    es.Pairwise fun e f => e.plain ≠ f.plain
  shown_iff : ∀ tag, (∃ es, t.expansions? tag = some es) ↔
    ∃ r ∈ before, r.rule.lhs = tag
  size_eq : t.size = (distinct (before.map fun r => r.rule.lhs)).length
  ruleCount_eq : t.ruleCount = (empty.answers before).count (.ok true)

theorem stateSpec_attemptAll (before : List Request) :
    (empty.attemptAll before).StateSpec before where
  nonempty tag es shown :=
    ((attemptAll_grows .empty before).1.expansions?_eq_some_iff.1 shown).1
  unequal tag es shown := by
    have sound := (attemptAll_grows .empty before).1
    obtain ⟨-, rfl⟩ := sound.expansions?_eq_some_iff.1 shown
    exact List.pairwise_map.1 (sound.nodup tag)
  shown_iff tag := by
    have absent := find?_attemptAll before tag
    rw [← Option.ne_none_iff_exists', expansions?, ne_eq,
      Option.map_eq_none_iff, absent]
    simp
  size_eq := by
    refine size_eq_length (nodup_distinct _) fun tag => ?_
    rw [mem_distinct, List.mem_map, ne_eq, find?_attemptAll]
    simp
  ruleCount_eq := ruleCount_attemptAll before

/-- **What every request does to every table** that requests to the empty one
lead to, and what such a table is. -/
theorem attemptAll_spec (before : List Request) :
    (empty.attemptAll before).StepSpec ∧
      (empty.attemptAll before).StateSpec before :=
  ⟨(attemptAll_grows .empty before).1.stepSpec, stateSpec_attemptAll before⟩

/-- Requests for two tags, one of them refused and one for nothing new. -/
def dogRequests : List Request :=
  [.register ⟨"P_DOG".toList, [.terminal "dog".toList]⟩,
    .insert ⟨"P_DOG".toList, [.nonterminal "NN".toList]⟩,
    .insert ⟨"S".toList, [.preterminal "P_DOG".toList]⟩,
    .insert ⟨"S".toList, [.nonterminal "P_DOG".toList]⟩,
    .insert ⟨"S".toList, [.nonterminal "VP".toList]⟩]

/-- Two of these five requests add nothing, and a registration over the two
expansions of the second tag is told both of them. -/
theorem attemptAll_spec_dog :
    (empty.attemptAll dogRequests).size = 2 ∧
      (empty.attemptAll dogRequests).ruleCount = 3 ∧
      (empty.attemptAll dogRequests).insertPreterminal
          ⟨"S".toList, [.terminal "dog".toList]⟩ =
        .error ⟨"S".toList, "P_DOG | VP".toList, "_dog".toList⟩ := by
  have stored : (empty.attemptAll dogRequests).expansions? "S".toList =
      some [[.preterminal "P_DOG".toList], [.nonterminal "VP".toList]] := by
    decide +kernel
  obtain ⟨step, state⟩ := attemptAll_spec dogRequests
  refine ⟨?_, ?_, ?_⟩
  · rw [state.size_eq]
    decide +kernel
  · rw [state.ruleCount_eq]
    decide +kernel
  · obtain ⟨c, failed⟩ := (step.insertPreterminal_fails_iff
      ⟨"S".toList, [.terminal "dog".toList]⟩).2 ⟨_, stored, by simp⟩
    obtain ⟨-, es, shown, told⟩ := step.failed
      (.register ⟨"S".toList, [.terminal "dog".toList]⟩) c failed
    obtain rfl := Option.some.inj (shown.symm.trans stored)
    rw [failed, told]
    rfl

end RuleTable

end TreebankGrammar
