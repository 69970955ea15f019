/-
TreebankGrammar/RuleTable.lean

The distinct productions of a grammar, by tag.

A table has one block for each tag: the tag's expansions in the order in
which they were first seen, and whether the tag is *registered* as a
preterminal.  A registered preterminal has exactly one expansion and refuses
every other; the refusal is a `Conflict`.

Design.  The blocks stand in the order of their tags, by code points, which
is the order in which a rule file lists them.  This order is part of the
type: no tag has two blocks, and tables with the same blocks are equal.  All
changes go through `put`, which replaces one block; `find?_put` says what it
does, and the two ways to insert a production are stated with `find?` and
`put` only.
-/
import TreebankGrammar.Production

namespace TreebankGrammar

/-! ### Blocks -/

/-- The expansions of one tag, and whether the tag is a registered
preterminal. -/
structure Block where
  tag : Text
  expansions : List Expansion
  registered : Bool
  deriving DecidableEq

/-- An attempt to give a registered preterminal a second expansion. -/
structure Conflict where
  preterminal : Text
  existing : Text
  requested : Text
  deriving DecidableEq

namespace Block

/-- Whether a block holds an expansion, compared in plain form. -/
def holds (b : Block) (e : Expansion) : Bool :=
  b.expansions.any fun f => f.plain == e.plain

/-- Whether an expansion is the only one of a block. -/
def holdsOnly (b : Block) (e : Expansion) : Bool :=
  b.expansions.length == 1 && b.holds e

/-- The conflict that a request for a further expansion of a block is. -/
def conflict (b : Block) (requested : Expansion) : Conflict :=
  { preterminal := b.tag
    existing := Text.join [' ', '|', ' '] (b.expansions.map Expansion.written)
    requested := requested.written }

/-- The block with an expansion at the end. -/
def extended (b : Block) (e : Expansion) : Block :=
  { b with expansions := b.expansions ++ [e] }

/-- Puts a block in its place in a list of blocks that is ordered by tag,
instead of the block of its tag if there is one. -/
def putIn (b : Block) : List Block → List Block
  | [] => [b]
  | c :: cs =>
    if b.tag < c.tag then b :: c :: cs
    else if b.tag = c.tag then b :: cs
    else c :: putIn b cs

theorem mem_putIn {b c : Block} {cs : List Block} (h : c ∈ b.putIn cs) :
    c = b ∨ c ∈ cs := by
  induction cs with
  | nil => simpa [putIn] using h
  | cons d ds ih =>
    simp only [putIn] at h
    split at h
    · simpa using h
    · split at h
      · rcases List.mem_cons.1 h with e | m
        · exact .inl e
        · exact .inr (List.mem_cons_of_mem _ m)
      · rcases List.mem_cons.1 h with e | m
        · exact .inr (e ▸ List.mem_cons_self)
        · rcases ih m with e | m
          · exact .inl e
          · exact .inr (List.mem_cons_of_mem _ m)

/-- A tag that is not below and not equal to another lies above it. -/
theorem tag_lt_of_not_lt {s t : Text} (below : ¬ s < t) (ne : s ≠ t) :
    t < s := by
  rcases List.le_iff_lt_or_eq.1 (List.not_lt.1 below) with lt | eq
  · exact lt
  · exact absurd eq.symm ne

theorem pairwise_putIn (b : Block) {cs : List Block}
    (h : cs.Pairwise fun c d => c.tag < d.tag) :
    (b.putIn cs).Pairwise fun c d => c.tag < d.tag := by
  induction cs with
  | nil => simp [putIn]
  | cons c cs ih =>
    obtain ⟨head, tail⟩ := List.pairwise_cons.1 h
    simp only [putIn]
    split
    · rename_i lt
      refine List.pairwise_cons.2 ⟨fun d m => ?_, h⟩
      rcases List.mem_cons.1 m with e | m
      · exact e ▸ lt
      · exact List.lt_trans lt (head d m)
    · split
      · rename_i eq
        exact List.pairwise_cons.2 ⟨fun d m => eq ▸ head d m, tail⟩
      · rename_i below ne
        refine List.pairwise_cons.2 ⟨fun d m => ?_, ih tail⟩
        rcases mem_putIn m with e | m
        · exact e ▸ tag_lt_of_not_lt below ne
        · exact head d m

/-- Looking for a tag after `putIn` finds the block that was put if it has
the tag, and otherwise what was found before. -/
theorem find?_putIn (b : Block) (cs : List Block) (tag : Text) :
    (b.putIn cs).find? (fun c => c.tag == tag) =
      if b.tag = tag then some b else cs.find? fun c => c.tag == tag := by
  induction cs with
  | nil => by_cases h : b.tag = tag <;> simp [putIn, h]
  | cons c cs ih =>
    simp only [putIn]
    split
    · by_cases h : b.tag = tag <;> simp [List.find?_cons, h]
    · split
      · rename_i eq
        by_cases h : b.tag = tag
        · simp [h]
        · have h' : c.tag ≠ tag := eq ▸ h
          simp [h, h']
      · rename_i ne
        by_cases h : c.tag = tag
        · have h' : b.tag ≠ tag := h ▸ ne
          simp [h, h']
        · simp [h, ih]

end Block

/-! ### Tables -/

/-- The distinct productions of a grammar, in blocks ordered by tag. -/
structure RuleTable where
  blocks : List Block
  ordered : blocks.Pairwise fun b c => b.tag < c.tag
  deriving DecidableEq

namespace RuleTable

/-- The table without productions. -/
def empty : RuleTable := ⟨[], List.Pairwise.nil⟩

/-- The number of tags. -/
def size (t : RuleTable) : Nat := t.blocks.length

/-- Whether a table has no tag. -/
def isEmpty (t : RuleTable) : Bool := t.blocks.isEmpty

/-- The number of productions. -/
def ruleCount (t : RuleTable) : Nat :=
  (t.blocks.flatMap Block.expansions).length

/-- The block of a tag. -/
def find? (t : RuleTable) (tag : Text) : Option Block :=
  t.blocks.find? fun b => b.tag == tag

/-- The expansions of a tag. -/
def expansions? (t : RuleTable) (tag : Text) : Option (List Expansion) :=
  (t.find? tag).map Block.expansions

/-- Whether a tag is a registered preterminal. -/
def isPreterminal (t : RuleTable) (tag : Text) : Bool :=
  (t.find? tag).any Block.registered

/-- The table with a block instead of the block of its tag. -/
def put (t : RuleTable) (b : Block) : RuleTable :=
  ⟨b.putIn t.blocks, b.pairwise_putIn t.ordered⟩

/-- What `put` does: the tag of the block that was put has that block, and
every other tag has the block it had. -/
theorem find?_put (t : RuleTable) (b : Block) (tag : Text) :
    (t.put b).find? tag = if b.tag = tag then some b else t.find? tag :=
  b.find?_putIn t.blocks tag

/-- The table with a block of it registered. -/
def register (t : RuleTable) (b : Block) : RuleTable :=
  if b.registered then t else t.put { b with registered := true }

/-! ### Inserting productions -/

/-- Adds a production.  Gives the table afterwards and whether the production
is new to it; fails if the tag is registered and the production is not the
one it has. -/
def insert (t : RuleTable) (rule : Production) :
    Except Conflict (RuleTable × Bool) :=
  match t.find? rule.lhs with
  | none => .ok (t.put ⟨rule.lhs, [rule.rhs], false⟩, true)
  | some block =>
    if block.registered && !block.holdsOnly rule.rhs then
      .error (block.conflict rule.rhs)
    else if block.holds rule.rhs then .ok (t, false)
    else .ok (t.put (block.extended rule.rhs), true)

/-- Adds a preterminal's production and registers the preterminal.  Gives the
table afterwards and whether the tag is new to it; fails if the tag has
expansions and they are not just this one. -/
def insertPreterminal (t : RuleTable) (rule : Production) :
    Except Conflict (RuleTable × Bool) :=
  match t.find? rule.lhs with
  | none => .ok (t.put ⟨rule.lhs, [rule.rhs], true⟩, true)
  | some block =>
    if block.holdsOnly rule.rhs then
      .ok (t.register block, false)
    else .error (block.conflict rule.rhs)

end RuleTable

end TreebankGrammar
