/-
TreebankGrammar/Proofs/Reachable.lean

Tables that a converter can reach.

A converter may be given further lines after one that fails.  Such a line
leaves the requests granted before the failure in the table, so the tables
reached are more than those of conversions that get through.  Two things
hold of them all: they are sound, and every expansion of a tag was requested
by one of the lines.

Design.  As requests are only ever granted or refused, both facts are
invariants of a run of requests, wherever it stops (`serveAll_invariant`);
lines and sequences of lines inherit them (`processAll_invariant`).
-/
import TreebankGrammar.Proofs.Conversion
import TreebankGrammar.Proofs.Writable

namespace TreebankGrammar

namespace RuleTable

/-- Whether all expansions of a table are those of some productions. -/
def DrawsFrom (t : RuleTable) (ps : List Production) : Prop :=
  ∀ tag, ∀ e ∈ t.expansionsOf tag, ⟨tag, e⟩ ∈ ps

variable {t t' : RuleTable} {ps : List Production}

theorem DrawsFrom.grants {r : Request} {isNew : Bool} (h : t.DrawsFrom ps)
    (g : t.Grants r t' isNew) (new : r.rule ∈ ps) : t'.DrawsFrom ps := by
  intro tag e m
  rw [g.expansionsOf_eq] at m
  split at m
  · rename_i here
    rcases List.mem_append.1 m with old | last
    · exact h tag e old
    · obtain rfl := List.mem_singleton.1 last
      obtain ⟨rfl, -⟩ := here
      exact new
  · exact h tag e m

/-- A run of requests, whether or not it gets through, keeps a table sound
and draws from the requests. -/
theorem serveAll_invariant (rs : List Request) (sound : t.Sound)
    (draws : t.DrawsFrom ps) (sub : ∀ r ∈ rs, r.rule ∈ ps) :
    (t.serveAll rs).2.Sound ∧ (t.serveAll rs).2.DrawsFrom ps := by
  induction rs generalizing t with
  | nil => exact ⟨sound, draws⟩
  | cons r rs ih =>
    have here := sub r List.mem_cons_self
    have later : ∀ q ∈ rs, q.rule ∈ ps :=
      fun q m => sub q (List.mem_cons_of_mem _ m)
    rw [serveAll]
    rcases serve_spec sound r with ⟨-, e⟩ | ⟨free, t', isNew, e, g⟩
    · rw [e]
      exact ⟨sound, draws⟩
    · rw [e]
      exact ih (sound.grants free g) (draws.grants g here) later

end RuleTable

namespace Converter

/-- The converter after lines, whatever became of each. -/
def processAll (c : Converter) (texts : List Text) : Converter :=
  texts.foldl (fun c text => (c.processLine text).2) c

/-- What a line does to the table is a run of its requests; a line that
cannot be read has none. -/
theorem table_processLine (c : Converter) (text : Text) :
    (c.processLine text).2.table =
      (c.table.serveAll
        (requestsOf (parsedLine? (some text)).toList)).2 := by
  rcases h : Line.parse text with fault | line
  · rw [processLine_malformed h]
    simp [parsedLine?, h, Except.toOption, requestsOf, RuleTable.serveAll]
  · have requests :
        requestsOf (parsedLine? (some text)).toList = line.requests := by
      simp [parsedLine?, h, Except.toOption, requestsOf]
    rw [requests]
    rcases c.processLine_cases h with ⟨c', e, run⟩ | ⟨_, c', e, run⟩
    · rw [e, run]
    · rw [e, run]

/-- The productions that the readable ones among lines request. -/
def requestedBy (texts : List Text) : List Production :=
  texts.flatMap fun text =>
    (requestsOf (parsedLine? (some text)).toList).map Request.rule

theorem mem_requestedBy {texts : List Text} {p : Production} :
    p ∈ requestedBy texts ↔
      ∃ text ∈ texts, ∃ line, Line.parse text = .ok line ∧
        ∃ r ∈ line.requests, r.rule = p := by
  simp only [requestedBy, requestsOf, List.mem_flatMap, List.mem_map,
    Option.mem_toList, parsedLine?_some_iff]
  constructor
  · rintro ⟨text, m, r, ⟨line, e, mr⟩, eq⟩
    exact ⟨text, m, line, e, r, mr, eq⟩
  · rintro ⟨text, m, line, e, r, mr, eq⟩
    exact ⟨text, m, r, ⟨line, e, mr⟩, eq⟩

/-- Lines, whatever becomes of them, keep the table sound and draw from
their requests. -/
theorem processAll_draws {ps : List Production} (texts : List Text)
    {c : Converter} (sound : c.table.Sound) (draws : c.table.DrawsFrom ps)
    (sub : ∀ p ∈ requestedBy texts, p ∈ ps) :
    (c.processAll texts).table.Sound ∧
      (c.processAll texts).table.DrawsFrom ps := by
  induction texts generalizing c with
  | nil => exact ⟨sound, draws⟩
  | cons text texts ih =>
    rw [requestedBy, List.flatMap_cons] at sub
    have here : ∀ r ∈ requestsOf (parsedLine? (some text)).toList,
        r.rule ∈ ps :=
      fun r m => sub _ (List.mem_append_left _ (List.mem_map_of_mem m))
    have step := RuleTable.serveAll_invariant _ sound draws here
    rw [← table_processLine] at step
    exact ih step.1 step.2 fun p m => sub p (List.mem_append_right _ m)

/-- **Reachable tables** are sound, and their expansions are those that the
lines requested. -/
theorem processAll_invariant (interval : Nat) (texts : List Text) :
    ((start interval).processAll texts).table.Sound ∧
      ((start interval).processAll texts).table.DrawsFrom
        (requestedBy texts) := by
  have none : (start interval).table.DrawsFrom (requestedBy texts) := by
    intro tag e m
    simp [start, RuleTable.expansionsOf_empty] at m
  exact processAll_draws texts .empty none fun _ m => m

end Converter

/-- Lines that are taken in to the end are texts. -/
theorem Converter.exists_of_processLines {lines : List (Option Text)}
    {c c' : Converter} (h : c.processLines lines = (none, c')) :
    ∃ texts, lines = texts.map some ∧ c' = c.processAll texts := by
  induction lines generalizing c with
  | nil =>
    rw [processLines] at h
    exact ⟨[], rfl, (Prod.mk.inj h).2.symm⟩
  | cons line lines ih =>
    rcases line with - | text
    · cases h
    · rw [processLines] at h
      rcases run : c.processLine text with ⟨- | error, d⟩
      · rw [run] at h
        obtain ⟨texts, rfl, rfl⟩ := ih h
        refine ⟨text :: texts, rfl, ?_⟩
        rw [processAll, processAll, List.foldl_cons, run]
      · rw [run] at h
        cases h

/-- The table of a conversion that gets through is reachable. -/
theorem exists_finalTable_eq {listing : Bytes} (h : Accepts listing) :
    ∃ texts, listing.lines = texts.map some ∧ finalTable listing =
      ((Converter.start Converter.defaultInterval).processAll
        texts).table := by
  rw [accepts_iff_read] at h
  obtain ⟨texts, lines, run⟩ := Converter.exists_of_processLines
    (Prod.ext h rfl : _ = (none, _))
  exact ⟨texts, lines, congrArg Converter.table run⟩

/-- The expansions of a reachable table are writable, and so are their
tags. -/
theorem isWritable_of_mem_expansionsOf {interval : Nat} {texts : List Text}
    {tag : Text} {e : Expansion}
    (m : e ∈ (((Converter.start interval).processAll texts).table).expansionsOf
      tag) :
    Production.IsWritable ⟨tag, e⟩ := by
  have drawn := (Converter.processAll_invariant interval texts).2 tag e m
  obtain ⟨text, -, line, parsed, r, mr, eq⟩ :=
    Converter.mem_requestedBy.1 drawn
  rw [← eq]
  exact isWritable_of_mem_requests parsed mr

theorem isWritable_of_mem_finalTable {listing : Bytes} (h : Accepts listing)
    {b : Block} (mb : b ∈ (finalTable listing).blocks) {e : Expansion}
    (me : e ∈ b.expansions) : Production.IsWritable ⟨b.tag, e⟩ := by
  obtain ⟨texts, -, table⟩ := exists_finalTable_eq h
  rw [table] at mb
  rw [← RuleTable.expansionsOf_of_find? (RuleTable.mem_blocks_iff.1 mb)] at me
  exact isWritable_of_mem_expansionsOf me

end TreebankGrammar
