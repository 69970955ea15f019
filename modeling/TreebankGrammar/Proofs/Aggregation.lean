/-
TreebankGrammar/Proofs/Aggregation.lean

Conversion without a table.

What a conversion writes can be said without symbols, requests or a table
that grows.  Every line brings *entries*, pairs of a tag and an expansion as
text: one for each of its distinct words with siblings, and one for itself.
For every tag the distinct texts among its entries are collected, in the
order of first occurrence; the tags are put in order; and every text is
written with the reciprocal of their number (`aggregate`).

The converter collects expansions and not texts.  The two agree since the
written form of a writable expansion determines its symbols, apart from the
difference between preterminals and other nonterminals, which expansions are
compared without (`Expansion.IsLegible.plain_eq_iff`).

Main result: `output_eq_aggregate`.
-/
import Mathlib.Data.List.Sort
import TreebankGrammar.Proofs.FileLines
import TreebankGrammar.Proofs.LineOrder

namespace TreebankGrammar

/-! ### Entries -/

/-- A tag with an expansion as it is written. -/
abbrev Entry := Text × Text

/-- A child as it is written: a word among siblings by the name of its
preterminal, any other word with the mark of terminals. -/
def childText (siblings : Bool) (child : Text) : Text :=
  if Symbol.startsUppercase child then child
  else if siblings then Symbol.preterminalMark ++ Text.upper child
  else Symbol.terminalMark :: child

/-- The entry of a word that has siblings. -/
def wordEntry (word : Text) : Entry :=
  (Symbol.preterminalMark ++ Text.upper word, Symbol.terminalMark :: word)

/-- The entries of a line: one for each of its distinct words if there are
siblings, then the one for the line itself. -/
def Line.entries (line : Line) : List Entry :=
  let siblings := decide (1 < line.children.length)
  let words := line.children.filter fun child =>
    siblings && !Symbol.startsUppercase child
  (distinct words).map wordEntry ++
    [(line.tag, Text.join [' '] (line.children.map (childText siblings)))]

/-- The distinct texts among the entries of a tag. -/
def textsOf (entries : List Entry) (tag : Text) : List Text :=
  distinct ((entries.filter fun entry => entry.1 = tag).map Prod.snd)

/-- The distinct tags of entries, in order. -/
def tagsOf (entries : List Entry) : List Text :=
  (distinct (entries.map Prod.fst)).insertionSort fun s t => ¬ t < s

/-- The rules of a tag as they are written: all its texts with the same
probability. -/
def rulesOf (entries : List Entry) (tag : Text) : Text :=
  (textsOf entries tag).flatMap fun text =>
    tag ++ Production.openMark ++ text ++ closeMark ++
      (uniformProbability (textsOf entries tag).length).scientific ++ ['\n']

/-- The rule file of lines. -/
def aggregate (lines : List Line) : Text :=
  (tagsOf (lines.flatMap Line.entries)).flatMap
    (rulesOf (lines.flatMap Line.entries))

/-! ### Entries and requests -/

/-- The entry of a request. -/
def Request.entry (r : Request) : Entry := (r.rule.lhs, r.rule.rhs.written)

theorem written_childSymbol (siblings : Bool) (child : Text) :
    (Normalized.childSymbol siblings child).written =
      childText siblings child := by
  cases siblings <;> rcases upper : Symbol.startsUppercase child with - | - <;>
    simp [Normalized.childSymbol, Symbol.ofListing, childText, upper,
      Symbol.preterminalFor, Symbol.written]

theorem entry_register_preterminalFor (word : Text) :
    (Request.register (Production.preterminalFor word)).entry =
      wordEntry word := by
  refine Prod.ext rfl ?_
  simp [Request.entry, Production.preterminalFor, wordEntry,
    Expansion.written, Symbol.written, Text.join, List.intercalate]

/-- The entries of a line are those of its requests. -/
theorem entries_eq_map_requests (line : Line) :
    line.entries = line.requests.map Request.entry := by
  have words : line.normalized.preterminals =
      (distinct (line.children.filter fun child =>
        decide (1 < line.children.length) &&
          !Symbol.startsUppercase child)).map Production.preterminalFor := by
    by_cases siblings : 1 < line.children.length <;>
      simp [Line.normalized, Normalized.ofChildren, Normalized.replacedWords,
        siblings, distinct]
  have own : line.normalized.rule.rhs.written = Text.join [' ']
      (line.children.map
        (childText (decide (1 < line.children.length)))) := by
    show Text.join [' '] ((line.children.map _).map _) = _
    rw [List.map_map]
    exact congrArg _ (List.map_congr_left fun child _ =>
      written_childSymbol _ child)
  rw [Line.requests, List.map_append, List.map_map, words, List.map_map,
    Line.entries]
  refine congrArg₂ _ ?_ ?_
  · exact List.map_congr_left fun word _ =>
      (entry_register_preterminalFor word).symm
  · rw [List.map_singleton, ← own]
    rfl

theorem flatMap_entries (lines : List Line) :
    lines.flatMap Line.entries = (requestsOf lines).map Request.entry := by
  rw [requestsOf, List.map_flatMap]
  exact List.flatMap_congr fun line _ => entries_eq_map_requests line

/-! ### Texts and expansions -/

/-- Making a list distinct and mapping it commute, if the map tells its
elements apart. -/
theorem distinct_map {α β : Type} [DecidableEq α] [DecidableEq β]
    {f : α → β} {xs : List α}
    (inj : ∀ x ∈ xs, ∀ y ∈ xs, f x = f y → x = y) :
    distinct (xs.map f) = (distinct xs).map f := by
  induction xs with
  | nil => rfl
  | cons x xs ih =>
    have tail := ih fun y my z mz =>
      inj y (List.mem_cons_of_mem _ my) z (List.mem_cons_of_mem _ mz)
    rw [List.map_cons, distinct, distinct, List.map_cons, tail,
      List.filter_map]
    congr 2
    refine List.filter_congr fun y my => ?_
    have same : f y = f x ↔ y = x :=
      ⟨inj y (List.mem_cons_of_mem _ (mem_distinct.1 my)) x
        List.mem_cons_self, congrArg f⟩
    simp [same]

/-- The texts of a tag are its expansions as they are written. -/
theorem textsOf_eq {t : RuleTable} {rs : List Request} (h : t.Records rs)
    (writable : ∀ r ∈ rs, r.rule.rhs.IsWritable) (tag : Text) :
    textsOf (rs.map Request.entry) tag =
      (t.expansionsOf tag).map Expansion.written := by
  have given_texts : ((rs.map Request.entry).filter fun entry =>
      entry.1 = tag).map Prod.snd = (given rs tag).map Expansion.written := by
    rw [given, List.filter_map, List.map_map, List.map_map]
    exact List.map_congr_left fun r _ =>
      (Expansion.written_plain r.rule.rhs).symm
  have apart : ∀ e ∈ given rs tag, ∀ f ∈ given rs tag,
      e.written = f.written → e = f := by
    intro e me f mf same
    obtain ⟨p, mp, -, rfl⟩ := mem_given.1 me
    obtain ⟨q, mq, -, rfl⟩ := mem_given.1 mf
    rw [Expansion.written_plain, Expansion.written_plain] at same
    exact ((writable p mp).isLegible.plain_eq_iff
      (writable q mq).isLegible).2 same
  calc textsOf (rs.map Request.entry) tag
      = distinct ((given rs tag).map Expansion.written) := by
        rw [textsOf, given_texts]
    _ = ((t.expansionsOf tag).map Expansion.plain).map Expansion.written := by
        rw [distinct_map apart, h.expansions_eq]
    _ = (t.expansionsOf tag).map Expansion.written := by
        rw [List.map_map]
        exact List.map_congr_left fun e _ => Expansion.written_plain e

/-! ### Tags -/

theorem mem_tagsOf {entries : List Entry} {tag : Text} :
    tag ∈ tagsOf entries ↔ ∃ entry ∈ entries, entry.1 = tag := by
  rw [tagsOf, List.mem_insertionSort, mem_distinct, List.mem_map]

/-- The tags are strictly ascending. -/
theorem pairwise_tagsOf (entries : List Entry) :
    (tagsOf entries).Pairwise (· < ·) := by
  have : IsTrans Text fun s t => ¬ t < s := ⟨by
    intro s t u hst htu lt
    by_cases eq : t = s
    · exact htu (eq ▸ lt)
    · exact htu (List.lt_trans lt (Block.tag_lt_of_not_lt hst eq))⟩
  have : Std.Total fun s t : Text => ¬ t < s := ⟨by
    intro s t
    by_cases lt : t < s
    · exact .inr fun gt => List.lt_irrefl _ (List.lt_trans lt gt)
    · exact .inl lt⟩
  have sorted := List.pairwise_insertionSort (fun s t : Text => ¬ t < s)
    (distinct (entries.map Prod.fst))
  have nodup : (tagsOf entries).Nodup :=
    (List.perm_insertionSort _ _).nodup_iff.2 (nodup_distinct _)
  -- of two different texts the one that is not above lies below
  refine sorted.imp₂ ?_ nodup
  intro s t le ne
  exact Block.tag_lt_of_not_lt le ne.symm

/-- The tags of a table are those of the entries. -/
theorem tagsOf_eq {t : RuleTable} {rs : List Request} (h : t.Records rs) :
    tagsOf (rs.map Request.entry) = t.blocks.map Block.tag := by
  refine eq_of_pairwise_lt (pairwise_tagsOf _) t.pairwise_tags fun tag => ?_
  rw [mem_tagsOf, h.mem_tags]
  simp only [List.mem_map, exists_exists_and_eq_and, Request.entry]

/-! ### The rule file -/

/-- The rules of a tag are the lines of its block. -/
theorem rulesOf_eq {t : RuleTable} {rs : List Request} (h : t.Records rs)
    (writable : ∀ r ∈ rs, r.rule.rhs.IsWritable) {b : Block}
    (m : b ∈ t.blocks) :
    rulesOf (rs.map Request.entry) b.tag = b.ruleLines.flatten := by
  have texts : textsOf (rs.map Request.entry) b.tag =
      b.expansions.map Expansion.written := by
    rw [textsOf_eq h writable,
      RuleTable.expansionsOf_of_find? (RuleTable.mem_blocks_iff.1 m)]
  rw [rulesOf, texts, List.length_map, List.flatMap_map, Block.ruleLines,
    ← List.flatMap_def]
  rfl

/-- The lines of a table that records the requests of lines are the rule file
of the lines. -/
theorem aggregate_eq {t : RuleTable} {lines : List Line}
    (h : t.Records (requestsOf lines))
    (writable : ∀ r ∈ requestsOf lines, r.rule.rhs.IsWritable) :
    aggregate lines = t.ruleLines.flatten := by
  rw [aggregate, flatMap_entries, tagsOf_eq h, List.flatMap_map,
    RuleTable.ruleLines, List.flatMap_def (f := Block.ruleLines),
    List.flatten_flatten, List.map_map]
  exact congrArg List.flatten (List.map_congr_left fun b m =>
    rulesOf_eq h writable m)

/-- **Conversion without a table.**  What a conversion that gets through
writes is the rule file of its lines, and the number of rules is that of the
lines written.  The tags of the file are strictly ascending, and each has a
text. -/
theorem output_eq_aggregate (listing : Bytes) (room : Option Nat) (n : Nat)
    (h : (convert listing room).result = .ok n) :
    (convert listing room).output =
        Text.encode (aggregate listing.parsedLines) ∧
      n = (convert listing room).output.lines.length ∧
      (tagsOf (listing.parsedLines.flatMap Line.entries)).Pairwise (· < ·) ∧
      ∀ tag ∈ tagsOf (listing.parsedLines.flatMap Line.entries),
        1 ≤ (textsOf (listing.parsedLines.flatMap Line.entries)
          tag).length := by
  obtain ⟨result, output⟩ := convert_of_ok h
  have accepted : Accepts listing := ⟨n, result⟩
  have records := records_finalTable accepted
  rw [← output]
  refine ⟨?_, ?_, pairwise_tagsOf _, ?_⟩
  · have file := aggregate_eq records fun r m =>
      (isWritable_of_mem_requestsOf m).expansion
    rw [(convert_of_accepts accepted).2, file, Text.encode_flatten]
  · have lines : n = (finalTable listing).ruleLines.length :=
      Except.ok.inj (result.symm.trans (convert_of_accepts accepted).1)
    rw [lines, lines_output accepted, RuleTable.ruleLines_eq_map,
      List.length_map, List.length_map]
  · intro tag m
    obtain ⟨entry, me, rfl⟩ := mem_tagsOf.1 m
    have text : entry.2 ∈
        textsOf (listing.parsedLines.flatMap Line.entries) entry.1 := by
      rw [textsOf, mem_distinct]
      exact List.mem_map_of_mem (List.mem_filter.2 ⟨me, by simp⟩)
    exact List.length_pos_of_mem text

/-- Two lines whose expansions are equal as texts, one with a preterminal and
one with a nonterminal of its name. -/
theorem output_eq_aggregate_dog :
    (convert (Text.encode "X --> P_DOG NN\nX --> dog NN\n".toList)
          (some 60)).output =
        Text.encode (aggregate (Bytes.parsedLines
          (Text.encode "X --> P_DOG NN\nX --> dog NN\n".toList))) ∧
      aggregate (Bytes.parsedLines
          (Text.encode "X --> P_DOG NN\nX --> dog NN\n".toList)) =
        "P_DOG->[_dog] : 1.000000e+00\nX->[P_DOG NN] : 1.000000e+00\n".toList :=
  ⟨(output_eq_aggregate _ (some 60) 2 (by decide +kernel)).1,
    by decide +kernel⟩

end TreebankGrammar
