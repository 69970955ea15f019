/-
TreebankGrammar/Proofs/Replay.lean

Taking in a line again.

The verdict on a line never changes.  If a converter took it in once, it
takes it in at any later time, and the table stays as it is.  If the line
failed once, it fails at any later time for the same cause, and changes
nothing: even what a failing line registers before its conflict was
registered the first time.

Both come from `Proofs/Permanence`: a line is a run of requests, so the table
that it left is one at which its run *ends* (`RuleTable.Ends`), and tables
only grow.

Main result: `processLine_again`.
-/
import TreebankGrammar.Proofs.Permanence
import TreebankGrammar.Proofs.Reachable

namespace TreebankGrammar

/-! ### Causes of errors -/

/-- Two errors about the same line for the same cause: the same fault, or a
conflict about the same request.  The number of the line may differ, and so
may the expansions that stand against the request. -/
inductive Error.Alike : Error → Error → Prop
  | malformedLine {m n line fault} :
      Alike (.malformedLine m line fault) (.malformedLine n line fault)
  | preterminalConflict {m n c d} :
      c.preterminal = d.preterminal → c.requested = d.requested →
      Alike (.preterminalConflict m c) (.preterminalConflict n d)

namespace Converter

variable {c later : Converter} {text : Text} {line : Line}

/-! ### Growth -/

/-- A line, whatever becomes of it, keeps the table sound and lets it
grow. -/
theorem processLine_grows (sound : c.table.Sound) (text : Text) :
    (c.processLine text).2.table.Sound ∧
      c.table.Grows (c.processLine text).2.table := by
  rw [table_processLine]
  obtain ⟨sound', grows, -⟩ := RuleTable.serveAll_ends
    (requestsOf (parsedLine? (some text)).toList) sound
  exact ⟨sound', grows⟩

theorem processAll_grows (sound : c.table.Sound) (texts : List Text) :
    (c.processAll texts).table.Sound ∧
      c.table.Grows (c.processAll texts).table := by
  induction texts generalizing c with
  | nil => exact ⟨sound, .refl _⟩
  | cons text texts ih =>
    obtain ⟨sound', grows⟩ := processLine_grows sound text
    obtain ⟨sound'', grows'⟩ := ih sound'
    exact ⟨sound'', grows.trans grows'⟩

theorem processAll_append (texts others : List Text) (c : Converter) :
    c.processAll (texts ++ others) = (c.processAll texts).processAll others :=
  List.foldl_append

/-! ### Lines that can be read -/

/-- A line that can be read comes to the same at a later time as where its
run of requests ended, and leaves the table. -/
theorem processLine_of_ends (parsed : Line.parse text = .ok line)
    (sound : c.table.Sound) {conflict : Option Conflict}
    (ends : c.table.Ends line.requests conflict) :
    (c.processLine text).1 =
        conflict.map (Error.preterminalConflict (c.lines + 1)) ∧
      (c.processLine text).2.table = c.table := by
  have run := c.processLine_eq parsed
  rw [ends.serveAll_eq sound] at run
  exact run

/-- Runs with the same verdict make lines fail alike, if they fail. -/
theorem alike_of_sameVerdict {m n : Nat} {v w : Option Conflict}
    (same : RuleTable.SameVerdict v w) :
    (v.map (Error.preterminalConflict m) = none →
        w.map (Error.preterminalConflict n) = none) ∧
      ∀ error, v.map (Error.preterminalConflict m) = some error →
        ∃ error', w.map (Error.preterminalConflict n) = some error' ∧
          error.Alike error' := by
  rcases v with - | c <;> rcases w with - | d
  · exact ⟨fun _ => rfl, nofun⟩
  · exact same.elim
  · exact same.elim
  · refine ⟨nofun, ?_⟩
    rintro error ⟨⟩
    exact ⟨_, rfl, .preterminalConflict same.1 same.2⟩

/-- What a line came to at one time is what it comes to once the table it
left has grown, and by then it leaves the table. -/
theorem processLine_of_grows (sound : c.table.Sound)
    (soundLater : later.table.Sound)
    (grows : (c.processLine text).2.table.Grows later.table) :
    (((c.processLine text).1 = none → (later.processLine text).1 = none) ∧
      ∀ error, (c.processLine text).1 = some error →
        ∃ error', (later.processLine text).1 = some error' ∧
          error.Alike error') ∧
      (later.processLine text).2.table = later.table := by
  rcases parsed : Line.parse text with fault | line
  · -- the fault of a line does not depend on the table
    rw [processLine_malformed parsed, processLine_malformed parsed]
    refine ⟨⟨nofun, ?_⟩, rfl⟩
    rintro error ⟨⟩
    exact ⟨_, rfl, .malformedLine⟩
  · obtain ⟨first, left⟩ := c.processLine_eq parsed
    obtain ⟨-, -, ends⟩ := RuleTable.serveAll_ends line.requests sound
    rw [left] at grows
    obtain ⟨conflict, endsLater, same⟩ := ends.mono grows
    obtain ⟨again, kept⟩ := processLine_of_ends parsed soundLater endsLater
    rw [first, again]
    exact ⟨alike_of_sameVerdict same, kept⟩

/-! ### Runs -/

/-- **Taking in a line again.**  Let a converter be given any lines, and let
`text` be one of them.  If it did not fail, then at any later time it does
not fail either, the table stays exactly as it is, and one more line is
counted.  If it failed, then at any later time it fails for the same cause,
and neither the table nor the number of lines changes. -/
theorem processLine_again (interval : Nat) (before after : List Text)
    (text : Text) :
    let c := (start interval).processAll before
    let later := (start interval).processAll (before ++ text :: after)
    ((c.processLine text).1 = none →
      (later.processLine text).1 = none ∧
        (later.processLine text).2.table = later.table ∧
        (later.processLine text).2.lines = later.lines + 1) ∧
    ∀ error, (c.processLine text).1 = some error →
      ∃ error', (later.processLine text).1 = some error' ∧
        error.Alike error' ∧
        (later.processLine text).2.table = later.table ∧
        (later.processLine text).2.lines = later.lines := by
  intro c later
  have sound : c.table.Sound := (processAll_grows .empty before).1
  have after_eq : later = (c.processLine text).2.processAll after :=
    processAll_append before (text :: after) _
  obtain ⟨soundNext, -⟩ := processLine_grows sound text
  obtain ⟨soundLater, grows⟩ := processAll_grows soundNext after
  rw [← after_eq] at soundLater grows
  obtain ⟨⟨passes, fails⟩, kept⟩ := processLine_of_grows sound soundLater grows
  obtain ⟨counted, uncounted⟩ := later.lines_processLine text
  constructor
  · intro passed
    exact ⟨passes passed, kept, counted (passes passed)⟩
  · intro error failed
    obtain ⟨error', failed', alike⟩ := fails error failed
    have ne : (later.processLine text).1 ≠ none := by
      rw [failed']
      exact Option.some_ne_none error'
    exact ⟨error', failed', alike, kept, uncounted ne⟩

/-- A line that was taken in before its tag was registered, and one that
failed after it had registered a preterminal of its own. -/
theorem processLine_again_dog :
    let texts := ["P_DOG --> dog".toList, "X --> dog NN".toList,
      "P_DOG --> cat NN".toList, "Y --> cat dog".toList]
    let later := (start 0).processAll texts
    ((later.processLine "P_DOG --> dog".toList).1 = none ∧
        (later.processLine "P_DOG --> dog".toList).2.table = later.table ∧
        (later.processLine "P_DOG --> dog".toList).2.lines =
          later.lines + 1) ∧
      ∃ error, (later.processLine "P_DOG --> cat NN".toList).1 = some error ∧
        (Error.preterminalConflict 3 ⟨"P_DOG".toList, "_dog".toList,
          "P_CAT NN".toList⟩).Alike error ∧
        (later.processLine "P_DOG --> cat NN".toList).2.table =
          later.table ∧
        (later.processLine "P_DOG --> cat NN".toList).2.lines =
          later.lines := by
  constructor
  · exact (processLine_again 0 [] _ "P_DOG --> dog".toList).1
      (by decide +kernel)
  · exact (processLine_again 0 ["P_DOG --> dog".toList,
      "X --> dog NN".toList] ["Y --> cat dog".toList]
      "P_DOG --> cat NN".toList).2 _ (by decide +kernel)

end Converter

end TreebankGrammar
