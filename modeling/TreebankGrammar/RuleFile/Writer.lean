/-
TreebankGrammar/RuleFile/Writer.lean

Writing a rule table as a rule file.

A rule file has one line for each production, the blocks in the order of
their tags.  All expansions of a tag have the same probability, the
reciprocal of their number.

Design.  The lines are a pure function of the table; what becomes of them
depends on the room of whatever takes them.  `deliver` hands lines of bytes
to a receiver that takes a limited number of bytes and fails at the first one
that does not fit.

Main result: a receiver has taken the beginning of the whole file, and the
delivery is complete just if the file fits (`deliverWithin_eq`).
-/
import TreebankGrammar.Number.Scientific
import TreebankGrammar.RuleFile.Rule
import TreebankGrammar.RuleTable
import TreebankGrammar.Text.Lines

namespace TreebankGrammar

/-! ### Lines of a rule file -/

/-- The probability that each of a number of expansions has. -/
def uniformProbability (count : Nat) : Binary64 :=
  (Binary64.ofNat count).reciprocal

/-- The lines of a block. -/
def Block.ruleLines (b : Block) : List Text :=
  let probability := (uniformProbability b.expansions.length).scientific
  b.expansions.map (ruleLine b.tag probability)

/-- The lines of the rule file of a table. -/
def RuleTable.ruleLines (t : RuleTable) : List Text :=
  t.blocks.flatMap Block.ruleLines

/-! ### Delivery -/

/-- What became of a sequence of writes: the bytes that were taken, and
whether all of them were. -/
structure Delivery where
  taken : Bytes
  complete : Bool
  deriving DecidableEq

/-- Hands chunks one after the other to a receiver with room for so many
bytes.  A chunk that does not fit is taken as far as it does, and nothing
after it. -/
def deliverWithin : Nat → List Bytes → Delivery
  | _, [] => ⟨[], true⟩
  | room, chunk :: chunks =>
    if chunk.length ≤ room then
      let rest := deliverWithin (room - chunk.length) chunks
      ⟨chunk ++ rest.taken, rest.complete⟩
    else ⟨chunk.take room, false⟩

/-- Hands chunks to a receiver, whose room may be unlimited. -/
def deliver (room : Option Nat) (chunks : List Bytes) : Delivery :=
  match room with
  | none => ⟨chunks.flatten, true⟩
  | some room => deliverWithin room chunks

/-- A limited delivery is the beginning of the whole: as many bytes are taken
as there is room for, however they are divided into chunks, and the delivery
is complete just if they all fit. -/
theorem deliverWithin_eq (room : Nat) (chunks : List Bytes) :
    deliverWithin room chunks =
      ⟨chunks.flatten.take room, decide (chunks.flatten.length ≤ room)⟩ := by
  induction chunks generalizing room with
  | nil => simp [deliverWithin]
  | cons chunk chunks ih =>
    simp only [deliverWithin, List.flatten_cons, List.length_append]
    split
    · rename_i fits
      rw [ih, List.take_append, List.take_of_length_le fits]
      congr 1
      rw [decide_eq_decide]
      omega
    · rename_i short
      rw [List.take_append_of_le_length (by omega)]
      congr 1
      rw [eq_comm, decide_eq_false_iff_not]
      omega

/-! ### Rule files -/

/-- Writes the rule file of a table to a receiver. -/
def RuleTable.write (t : RuleTable) (room : Option Nat) : Delivery :=
  deliver room (t.ruleLines.map Text.encode)

end TreebankGrammar
