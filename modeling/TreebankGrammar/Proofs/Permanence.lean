/-
TreebankGrammar/Proofs/Permanence.lean

Verdicts on requests are final.

A table only grows (`Grows`): what it has for a tag stays there in front of
what comes later, and no tag stops being registered.  So both verdicts on a
request last.  A granted request is *settled* (`Settled`): the table has its
expansion, and has its tag registered if it asked for that.  Serving it again
at any later time grants it and changes nothing.  A refused request is
refused at any later time, since the expansion it disagrees with is still
there.

Note what carries this.  Growth alone would not do: an insertion that was
granted could be refused once its tag is registered.  It is not, because a
registered tag has one expansion (`Sound.single`), and this has to be the
inserted one.

Main results: how a run of requests ends, and that it would end in the same
way later (`serveAll_ends`, `Ends.mono`, `Ends.serveAll_eq`); the expansion
with which a tag is registered is its only one from then on
(`expansions_of_registered`).
-/
import TreebankGrammar.Proofs.Agreement

namespace TreebankGrammar

namespace RuleTable

variable {t t' t'' : RuleTable} {r : Request}

/-! ### Growth -/

/-- Everything in a table is also in another, and expansions that only the
other has come last. -/
structure Grows (t t' : RuleTable) : Prop where
  expansions : ∀ tag, t.expansionsOf tag <+: t'.expansionsOf tag
  registered : ∀ {tag}, t.isPreterminal tag = true →
    t'.isPreterminal tag = true

theorem Grows.refl (t : RuleTable) : t.Grows t where
  expansions _ := List.prefix_rfl
  registered h := h

theorem Grows.trans (g : t.Grows t') (g' : t'.Grows t'') : t.Grows t'' where
  expansions tag := (g.expansions tag).trans (g'.expansions tag)
  registered h := g'.registered (g.registered h)

theorem Grants.grows {isNew : Bool} (g : t.Grants r t' isNew) :
    t.Grows t' where
  expansions := g.expansionsOf_prefix
  registered := g.mono

/-- The only expansion of a registered tag stays its only one. -/
theorem Grows.expansionsOf_eq_singleton (g : t.Grows t') (sound : t'.Sound)
    {tag : Text} (reg : t.isPreterminal tag = true) {e : Expansion}
    (single : t.expansionsOf tag = [e]) : t'.expansionsOf tag = [e] := by
  obtain ⟨f, later⟩ := sound.single (g.registered reg)
  have m : e ∈ t'.expansionsOf tag := by
    apply (g.expansions tag).subset
    rw [single]
    exact List.mem_singleton_self e
  rw [later, List.mem_singleton] at m
  rw [later, m]

/-! ### Settled requests -/

/-- A table has what a request asks for. -/
structure Settled (t : RuleTable) (r : Request) : Prop where
  holds : ∃ e ∈ t.expansionsOf r.rule.lhs, e.plain = r.rule.rhs.plain
  registered : r.registers = true → t.isPreterminal r.rule.lhs = true

theorem Grants.settled {isNew : Bool} (g : t.Grants r t' isNew) :
    t'.Settled r where
  holds := g.exists_expansion
  registered := g.registers

theorem Settled.mono (h : t.Settled r) (g : t.Grows t') : t'.Settled r where
  holds := by
    obtain ⟨e, m, same⟩ := h.holds
    exact ⟨e, (g.expansions _).subset m, same⟩
  registered reg := g.registered (h.registered reg)

/-- The one expansion of a registered tag is that of every settled request
for it. -/
theorem Settled.eq_of_single (h : t.Settled r) {e : Expansion}
    (single : t.expansionsOf r.rule.lhs = [e]) :
    e.plain = r.rule.rhs.plain := by
  obtain ⟨f, m, same⟩ := h.holds
  rw [single, List.mem_singleton] at m
  exact m ▸ same

theorem Settled.holdsOnly (h : t.Settled r) (sound : t.Sound) {b : Block}
    (found : t.find? r.rule.lhs = some b) (reg : b.registered = true) :
    b.holdsOnly r.rule.rhs = true := by
  have reg' : t.isPreterminal r.rule.lhs = true := by
    rw [isPreterminal_of_find? found, reg]
  obtain ⟨e, single⟩ := sound.single reg'
  rw [sound.holdsOnly_iff found, single]
  intro f m
  rw [List.mem_singleton.1 m]
  exact h.eq_of_single single

/-- **A settled request is granted and changes nothing.** -/
theorem Settled.serve_eq (h : t.Settled r) (sound : t.Sound) :
    t.serve r = .ok (t, false) := by
  obtain ⟨e, m, same⟩ := h.holds
  rcases found : t.find? r.rule.lhs with - | b
  · rw [expansionsOf_of_find?_none found] at m
    cases m
  · have holds : b.holds r.rule.rhs = true := by
      rw [expansionsOf_of_find? found] at m
      exact Block.holds_iff.2 ⟨e, m, same⟩
    have only := h.holdsOnly sound found
    cases r with
    | insert rule =>
      -- the guard looks at the block only if its tag is registered
      show t.insert rule = _
      rw [Request.rule_insert] at found holds only
      rcases reg : b.registered with - | -
      · simp [insert, found, reg, holds]
      · simp [insert, found, only reg, holds]
    | register rule =>
      show t.insertPreterminal rule = _
      rw [Request.rule_register] at found only
      have reg : b.registered = true := by
        rw [← isPreterminal_of_find? found]
        exact h.registered rfl
      simp [insertPreterminal, found, only reg, register, reg]

/-! ### Refused requests -/

/-- What is refused once is refused later. -/
theorem Grows.refuses (g : t.Grows t') (h : t.refuses r) : t'.refuses r := by
  obtain ⟨reg, e, m, ne⟩ := h
  refine ⟨?_, e, (g.expansions _).subset m, ne⟩
  rcases reg with asked | reg
  · exact .inl asked
  · exact .inr (g.registered reg)

theorem Sound.serve_of_refuses (sound : t.Sound) (h : t.refuses r) :
    t.serve r = .error (t.conflictOf r.rule) := by
  rcases serve_spec sound r with ⟨-, e⟩ | ⟨free, -⟩
  · exact e
  · exact absurd h free

/-! ### Runs up to the first refusal -/

/-- How a run of requests that has left a table ended: all of them are
settled, or there is a first one that the table refuses, with a conflict. -/
inductive Ends (t : RuleTable) : List Request → Option Conflict → Prop
  | settled {rs} : (∀ r ∈ rs, t.Settled r) → Ends t rs none
  | refused {before r after} : (∀ q ∈ before, t.Settled q) → t.refuses r →
      Ends t (before ++ r :: after) (some (t.conflictOf r.rule))

/-- A request that is settled may be put in front of a run. -/
theorem Ends.cons {rs : List Request} {conflict : Option Conflict}
    (h : t.Ends rs conflict) (settled : t.Settled r) :
    t.Ends (r :: rs) conflict := by
  cases h with
  | settled all =>
    exact .settled (List.forall_mem_cons.2 ⟨settled, all⟩)
  | @refused before q after all refused =>
    show t.Ends ((r :: before) ++ q :: after) _
    exact .refused (List.forall_mem_cons.2 ⟨settled, all⟩) refused

/-- **A run of requests** keeps a table sound and lets it grow, and ends with
all requests settled or with a refused one. -/
theorem serveAll_ends (rs : List Request) (sound : t.Sound) :
    (t.serveAll rs).2.Sound ∧ t.Grows (t.serveAll rs).2 ∧
      (t.serveAll rs).2.Ends rs (t.serveAll rs).1 := by
  induction rs generalizing t with
  | nil => exact ⟨sound, .refl t, .settled fun r m => by cases m⟩
  | cons r rs ih =>
    rw [serveAll]
    rcases serve_spec sound r with ⟨refused, e⟩ | ⟨free, t', isNew, e, g⟩
    · rw [e]
      have ends : t.Ends ([] ++ r :: rs) (some (t.conflictOf r.rule)) :=
        .refused (fun q m => by cases m) refused
      exact ⟨sound, .refl t, ends⟩
    · rw [e]
      obtain ⟨sound', grows, ends⟩ := ih (sound.grants free g)
      exact ⟨sound', g.grows.trans grows, ends.cons (g.settled.mono grows)⟩

/-- A run that ended at a table ends there again, and leaves it as it is. -/
theorem Ends.serveAll_eq {rs : List Request} {conflict : Option Conflict}
    (h : t.Ends rs conflict) (sound : t.Sound) :
    t.serveAll rs = (conflict, t) := by
  have pass : ∀ {qs : List Request}, (∀ q ∈ qs, t.Settled q) →
      t.serveAll qs = (none, t) := by
    intro qs all
    induction qs with
    | nil => rfl
    | cons q qs ih =>
      obtain ⟨settled, later⟩ := List.forall_mem_cons.1 all
      rw [serveAll, settled.serve_eq sound]
      exact ih later
  cases h with
  | settled all => exact pass all
  | refused all refused =>
    rw [serveAll_append, pass all]
    show serveAll _ t = _
    rw [serveAll, sound.serve_of_refuses refused]

/-- Two runs that both get through, or whose conflicts are about the same
request; the expansions told may differ. -/
def SameVerdict : Option Conflict → Option Conflict → Prop
  | none, none => True
  | some c, some d =>
    c.preterminal = d.preterminal ∧ c.requested = d.requested
  | _, _ => False

/-- How a run ended is how it would end later. -/
theorem Ends.mono {rs : List Request} {conflict : Option Conflict}
    (h : t.Ends rs conflict) (g : t.Grows t') :
    ∃ conflict', t'.Ends rs conflict' ∧ SameVerdict conflict conflict' := by
  cases h with
  | settled all =>
    exact ⟨none, .settled fun r m => (all r m).mono g, trivial⟩
  | @refused before r after all refused =>
    refine ⟨some (t'.conflictOf r.rule), .refused ?_ (g.refuses refused), ?_⟩
    · intro q m
      exact (all q m).mono g
    · exact ⟨rfl, rfl⟩

/-! ### Runs through refusals -/

/-- The table after a request, whether it is granted or refused. -/
def attempt (t : RuleTable) (r : Request) : RuleTable :=
  match t.serve r with
  | .ok (t', _) => t'
  | .error _ => t

/-- The table after requests, whatever becomes of each. -/
def attemptAll (t : RuleTable) (rs : List Request) : RuleTable :=
  rs.foldl attempt t

theorem attempt_grows (sound : t.Sound) (r : Request) :
    (t.attempt r).Sound ∧ t.Grows (t.attempt r) := by
  rw [attempt]
  rcases serve_spec sound r with ⟨-, e⟩ | ⟨free, t', isNew, e, g⟩
  · rw [e]
    exact ⟨sound, .refl t⟩
  · rw [e]
    exact ⟨sound.grants free g, g.grows⟩

theorem attemptAll_grows (sound : t.Sound) (rs : List Request) :
    (t.attemptAll rs).Sound ∧ t.Grows (t.attemptAll rs) := by
  induction rs generalizing t with
  | nil => exact ⟨sound, .refl t⟩
  | cons r rs ih =>
    obtain ⟨sound', grows⟩ := attempt_grows sound r
    obtain ⟨sound'', grows'⟩ := ih sound'
    exact ⟨sound'', grows.trans grows'⟩

/-! ### Registered tags -/

theorem expansions?_eq_singleton {tag : Text} {e : Expansion}
    (h : t.expansionsOf tag = [e]) : t.expansions? tag = some [e] := by
  rcases eq : t.expansions? tag with - | es
  · simp [expansionsOf, eq] at h
  · simpa [expansionsOf, eq] using h

/-- **Registration is for good.**  After any requests to a new table, granted
or refused, a registered tag has exactly one expansion.  Once a tag has been
registered with an expansion, whether that was new to the table or not, it
stays registered through all further requests, and has one expansion, always
the same and equal to the one it was registered with. -/
theorem expansions_of_registered (before : List Request) :
    (∀ tag, (empty.attemptAll before).isPreterminal tag = true →
      ∃ e, (empty.attemptAll before).expansions? tag = some [e]) ∧
    ∀ rule t isNew,
      (empty.attemptAll before).insertPreterminal rule = .ok (t, isNew) →
      ∃ e, e.plain = rule.rhs.plain ∧ ∀ after,
        (t.attemptAll after).isPreterminal rule.lhs = true ∧
          (t.attemptAll after).expansions? rule.lhs = some [e] := by
  have sound : (empty.attemptAll before).Sound :=
    (attemptAll_grows .empty before).1
  constructor
  · intro tag reg
    obtain ⟨e, single⟩ := sound.single reg
    exact ⟨e, expansions?_eq_singleton single⟩
  · intro rule t isNew ok
    rcases serve_spec sound (.register rule) with
      ⟨-, refused⟩ | ⟨free, t', isNew', granted, g⟩
    · cases ok.symm.trans refused
    · obtain ⟨rfl, rfl⟩ : t = t' ∧ isNew = isNew' := by
        simpa using ok.symm.trans granted
      have soundNow := sound.grants free g
      have reg : t.isPreterminal rule.lhs = true := g.registers rfl
      obtain ⟨e, single⟩ := soundNow.single reg
      refine ⟨e, g.settled.eq_of_single single, fun after => ?_⟩
      -- later requests only let the table grow
      obtain ⟨soundLater, grows⟩ := attemptAll_grows soundNow after
      refine ⟨grows.registered reg, expansions?_eq_singleton ?_⟩
      exact grows.expansionsOf_eq_singleton soundLater reg single

/-- A tag that came in by an insertion and is then registered with the same
word: neither another insertion nor another registration gets through. -/
theorem expansions_of_registered_dog :
    ∃ t, (empty.attemptAll
          [.insert ⟨"P_DOG".toList, [.terminal "dog".toList]⟩]
        ).insertPreterminal ⟨"P_DOG".toList, [.terminal "dog".toList]⟩ =
          .ok (t, false) ∧
      (t.attemptAll
          [.insert ⟨"P_DOG".toList, [.nonterminal "NN".toList]⟩,
            .register ⟨"P_DOG".toList, [.terminal "dOG".toList]⟩]
        ).expansions? "P_DOG".toList = some [[.terminal "dog".toList]] := by
  refine ⟨_, rfl, ?_⟩
  obtain ⟨e, same, always⟩ := (expansions_of_registered
    [.insert ⟨"P_DOG".toList, [.terminal "dog".toList]⟩]).2
      ⟨"P_DOG".toList, [.terminal "dog".toList]⟩ _ false rfl
  obtain rfl : e = [.terminal "dog".toList] :=
    Expansion.plain_eq_terminal_iff.1 same
  exact (always _).2

end RuleTable

end TreebankGrammar
