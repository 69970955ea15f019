/-
TreebankGrammar/Proofs/Conversion.lean

Conversions as runs of requests.

A line that can be read makes requests to the table: to register the
preterminals of its words, then to insert its own production.  Nothing else
in a converter touches the table, so taking in lines is a run of their
requests, with line numbers and events beside it.

Design.  A conversion that gets through is described by two functions of the
listing alone: the lines that can be read (`parsedLines`) and the table at
the end (`finalTable`).

Main results: a conversion gets through just if all lines can be read and
their requests agree (`accepts_iff_agree`); the table at the end then
records these requests (`records_finalTable`), and what is written are its
lines (`convert_of_accepts`).
-/
import TreebankGrammar.Converter
import TreebankGrammar.Proofs.Agreement

namespace TreebankGrammar

/-! ### Lines and their requests -/

/-- The requests of a line: its preterminals, then its own production. -/
def Line.requests (line : Line) : List Request :=
  line.normalized.preterminals.map Request.register ++
    [Request.insert line.normalized.rule]

/-- The requests of lines, line by line. -/
def requestsOf (lines : List Line) : List Request :=
  lines.flatMap Line.requests

/-- The line of a listing that a text is, if it can be read. -/
def parsedLine? (text : Option Text) : Option Line :=
  text.bind fun t => (Line.parse t).toOption

/-- The lines of a listing that can be read. -/
def Bytes.parsedLines (listing : Bytes) : List Line :=
  listing.lines.filterMap parsedLine?

/-- Whether a line is valid text and of one of the two forms. -/
def IsReadable (text : Option Text) : Prop :=
  ∃ t line, text = some t ∧ Line.parse t = .ok line

theorem parsedLine?_some_iff {t : Text} {line : Line} :
    parsedLine? (some t) = some line ↔ Line.parse t = .ok line := by
  rw [parsedLine?, Option.bind_some]
  rcases Line.parse t with fault | line' <;> simp [Except.toOption]

theorem isReadable_iff {text : Option Text} :
    IsReadable text ↔ ∃ line, parsedLine? text = some line := by
  constructor
  · rintro ⟨t, line, rfl, e⟩
    exact ⟨line, parsedLine?_some_iff.2 e⟩
  · rintro ⟨line, e⟩
    rcases text with - | t
    · cases e
    · exact ⟨t, line, rfl, parsedLine?_some_iff.1 e⟩

namespace Converter

/-! ### Steps of a converter -/

@[simp] theorem table_report (c : Converter) (e : Event) :
    (c.report e).table = c.table := rfl

@[simp] theorem table_count (c : Converter) : c.count.table = c.table := by
  simp only [count]
  split <;> rfl

/-- Registering the preterminals of a line is a run of requests. -/
theorem register_eq (lineNo : Nat) (rules : List Production)
    (c : Converter) :
    ((c.register lineNo rules).1, (c.register lineNo rules).2.table) =
      c.table.serveAll (rules.map Request.register) := by
  induction rules generalizing c with
  | nil => rfl
  | cons rule rules ih =>
    rw [List.map_cons, RuleTable.serveAll, RuleTable.serve, register]
    rcases c.table.insertPreterminal rule with conflict | ⟨table, isNew⟩
    · rfl
    · cases isNew <;> exact ih _

/-- Adding a line in normal form is a run of its requests. -/
theorem add_eq (lineNo : Nat) (line : Line) (c : Converter) :
    ((c.add lineNo line.normalized).1,
        (c.add lineNo line.normalized).2.table) =
      c.table.serveAll line.requests := by
  have reg := c.register_eq lineNo line.normalized.preterminals
  rw [Line.requests, RuleTable.serveAll_append, ← reg, add]
  -- the production of the line is requested if all preterminals are granted
  rcases c.register lineNo line.normalized.preterminals with
    ⟨- | conflict, c'⟩
  · simp only [RuleTable.serveAll, RuleTable.serve]
    rcases c'.table.insert line.normalized.rule with conflict | ⟨table, _⟩
      <;> rfl
  · rfl

/-- Taking in a line that can be read is a run of its requests; it fails
with the conflict of the run, if there is one. -/
theorem processLine_cases {text : Text} {line : Line}
    (h : Line.parse text = .ok line) (c : Converter) :
    (∃ c', c.processLine text = (none, c') ∧
        c.table.serveAll line.requests = (none, c'.table)) ∨
      ∃ conflict c',
        c.processLine text =
          (some (.preterminalConflict (c.lines + 1) conflict), c') ∧
        c.table.serveAll line.requests = (some conflict, c'.table) := by
  have run := (c.report (.parsedLine (c.lines + 1) line.form line.tag)).add_eq
    (c.lines + 1) line
  rw [table_report] at run
  rw [← run, processLine, h]
  simp only
  rcases (c.report _).add (c.lines + 1) line.normalized with
    ⟨- | conflict, c'⟩
  · exact .inl ⟨c'.count, rfl, by simp⟩
  · exact .inr ⟨conflict, c', rfl, rfl⟩

theorem processLine_malformed {text : Text} {fault : LineFault}
    (h : Line.parse text = .error fault) (c : Converter) :
    c.processLine text =
      (some (.malformedLine (c.lines + 1) text fault), c) := by
  rw [processLine, h]

/-- The error and the table that a line which can be read comes to are those
of the run of its requests. -/
theorem processLine_eq {text : Text} {line : Line}
    (h : Line.parse text = .ok line) (c : Converter) :
    (c.processLine text).1 = (c.table.serveAll line.requests).1.map
        (Error.preterminalConflict (c.lines + 1)) ∧
      (c.processLine text).2.table =
        (c.table.serveAll line.requests).2 := by
  rcases c.processLine_cases h with ⟨c', e, run⟩ | ⟨conflict, c', e, run⟩
  · rw [e, run]
    exact ⟨rfl, rfl⟩
  · rw [e, run]
    exact ⟨rfl, rfl⟩

theorem lines_register (lineNo : Nat) (rules : List Production)
    (c : Converter) : (c.register lineNo rules).2.lines = c.lines := by
  induction rules generalizing c with
  | nil => rfl
  | cons rule rules ih =>
    rw [register]
    rcases c.table.insertPreterminal rule with conflict | ⟨table, isNew⟩
    · rfl
    · cases isNew <;> exact ih _

theorem lines_add (lineNo : Nat) (line : Normalized) (c : Converter) :
    (c.add lineNo line).2.lines = c.lines := by
  have lines := c.lines_register lineNo line.preterminals
  rw [add]
  rcases run : c.register lineNo line.preterminals with ⟨- | conflict, c'⟩
  · rw [run] at lines
    simp only
    rcases c'.table.insert line.rule with conflict | ⟨table, isNew⟩
    · exact lines
    · exact lines
  · rw [run] at lines
    exact lines

theorem lines_count (c : Converter) : c.count.lines = c.lines + 1 := by
  simp only [count]
  split <;> rfl

/-- A line is counted just if it does not fail. -/
theorem lines_processLine (c : Converter) (text : Text) :
    ((c.processLine text).1 = none →
        (c.processLine text).2.lines = c.lines + 1) ∧
      ((c.processLine text).1 ≠ none →
        (c.processLine text).2.lines = c.lines) := by
  rcases parsed : Line.parse text with fault | line
  · rw [processLine_malformed parsed]
    simp
  · have lines := (c.report (.parsedLine (c.lines + 1) line.form
      line.tag)).lines_add (c.lines + 1) line.normalized
    rw [processLine, parsed]
    simp only
    rcases run : (c.report _).add (c.lines + 1) line.normalized with
      ⟨- | conflict, c'⟩
    · rw [run] at lines
      refine ⟨fun _ => ?_, fun failed => absurd rfl failed⟩
      show c'.count.lines = c.lines + 1
      rw [lines_count, lines]
      rfl
    · rw [run] at lines
      exact ⟨nofun, fun _ => lines⟩

/-- Lines are taken in without an error just if all can be read and the run
of their requests gets through; the run makes the table. -/
theorem processLines_spec (texts : List (Option Text)) (c : Converter) :
    ((c.processLines texts).1 = none ↔
        (∀ text ∈ texts, IsReadable text) ∧
          (c.table.serveAll (requestsOf (texts.filterMap parsedLine?))).1 =
            none) ∧
      ((c.processLines texts).1 = none →
        (c.processLines texts).2.table =
          (c.table.serveAll
            (requestsOf (texts.filterMap parsedLine?))).2) := by
  induction texts generalizing c with
  | nil => simp [processLines, requestsOf, RuleTable.serveAll]
  | cons text texts ih =>
    rcases e : parsedLine? text with - | line
    · -- a line that cannot be read ends the conversion
      have unreadable : ¬ IsReadable text := by simp [isReadable_iff, e]
      have failed : (c.processLines (text :: texts)).1 ≠ none := by
        rcases text with - | t
        · simp [processLines]
        · rcases h : Line.parse t with fault | line
          · simp [processLines, processLine_malformed h]
          · exact absurd ⟨t, line, rfl, h⟩ unreadable
      simp [failed, unreadable]
    · obtain ⟨t, line', rfl, h⟩ := isReadable_iff.2 ⟨line, e⟩
      obtain rfl : line' = line :=
        Option.some.inj ((parsedLine?_some_iff.2 h).symm.trans e)
      have readable : IsReadable (some t) := ⟨t, line', rfl, h⟩
      -- a line that can be read comes first in the run of all requests
      rw [List.filterMap_cons_some e, requestsOf, List.flatMap_cons,
        RuleTable.serveAll_append, processLines]
      rcases c.processLine_cases h with ⟨c', hp, run⟩ | ⟨_, c', hp, run⟩
      · simpa [hp, run, readable, requestsOf] using ih c'
      · simp [hp, run]

end Converter

/-! ### Conversions -/

/-- The table at the end of a conversion. -/
def finalTable (listing : Bytes) : RuleTable :=
  ((Converter.start Converter.defaultInterval).read listing).2.table

/-- A listing that cannot be read is not written. -/
theorem convert_of_read_error {listing : Bytes} {error : Error}
    {c : Converter}
    (h : (Converter.start Converter.defaultInterval).read listing =
      (some error, c)) (room : Option Nat) :
    convert listing room = ⟨.error error, [], c.log⟩ := by
  rw [convert, h]

/-- The table of a listing that can be read is written. -/
theorem convert_of_read {listing : Bytes} {c : Converter}
    (h : (Converter.start Converter.defaultInterval).read listing =
      (none, c)) (room : Option Nat) :
    convert listing room =
      ⟨((finalTable listing).writeRules room).1,
        ((finalTable listing).writeRules room).2, c.finish.log⟩ := by
  rw [convert, finalTable, h]
  rfl

/-- Writing with limited room is the beginning of writing without the
limit. -/
theorem RuleTable.writeRules_limited (t : RuleTable) (room : Nat) :
    t.writeRules (some room) =
      (if (t.writeRules none).2.length ≤ room then (t.writeRules none).1
        else .error .outputFull,
      (t.writeRules none).2.take room) := by
  simp [writeRules, write, deliver, deliverWithin_eq]

/-- With limited room, the conversion of a listing that can be read is cut to
the room. -/
theorem convert_cut {listing : Bytes} {c : Converter}
    (h : (Converter.start Converter.defaultInterval).read listing =
      (none, c)) (room : Nat) :
    convert listing (some room) =
      ⟨if (convert listing none).output.length ≤ room then
          (convert listing none).result
        else .error .outputFull,
      (convert listing none).output.take room,
      (convert listing none).log⟩ := by
  rw [convert_of_read h, convert_of_read h none,
    RuleTable.writeRules_limited]

/-- Whether a listing is converted without an error, the receiver having
room for everything. -/
def Accepts (listing : Bytes) : Prop :=
  ∃ n, (convert listing none).result = .ok n

theorem accepts_iff_read {listing : Bytes} :
    Accepts listing ↔
      ((Converter.start Converter.defaultInterval).read listing).1 =
        none := by
  rcases run : (Converter.start Converter.defaultInterval).read listing with
    ⟨- | error, c⟩
  · simp [Accepts, convert_of_read run, RuleTable.writeRules,
      RuleTable.write, deliver]
  · simp [Accepts, convert_of_read_error run]

/-- What a conversion that gets through gives: the number of the lines of
its table, and these lines. -/
theorem convert_of_accepts {listing : Bytes} (h : Accepts listing) :
    (convert listing none).result =
        .ok (finalTable listing).ruleLines.length ∧
      (convert listing none).output =
        ((finalTable listing).ruleLines.map Text.encode).flatten := by
  rw [accepts_iff_read] at h
  rcases run : (Converter.start Converter.defaultInterval).read listing with
    ⟨error, c⟩
  rw [run] at h
  subst h
  -- a receiver without limit takes everything
  rw [convert_of_read run]
  exact ⟨rfl, rfl⟩

/-- A conversion that gets through does so if the receiver has room for
everything, and writes the same. -/
theorem convert_of_ok {listing : Bytes} {room : Option Nat} {n : Nat}
    (h : (convert listing room).result = .ok n) :
    (convert listing none).result = .ok n ∧
      (convert listing none).output = (convert listing room).output := by
  rcases room with - | room
  · exact ⟨h, rfl⟩
  · rcases run : (Converter.start Converter.defaultInterval).read listing with
      ⟨- | error, c⟩
    · rw [convert_cut run] at h ⊢
      simp only at h ⊢
      split at h
      · rename_i fits
        exact ⟨h, (List.take_of_length_le fits).symm⟩
      · cases h
    · rw [convert_of_read_error run] at h
      cases h

/-- **Which listings are accepted**: those whose lines can all be read and
make requests that agree. -/
theorem accepts_iff_agree (listing : Bytes) :
    Accepts listing ↔
      (∀ text ∈ listing.lines, IsReadable text) ∧
        Agree (requestsOf listing.parsedLines) := by
  rw [accepts_iff_read, Converter.read,
    (Converter.processLines_spec listing.lines _).1, Bytes.parsedLines,
    ← (RuleTable.serveAll_spec _).1]
  rfl

/-- The table of an accepted listing records the requests of its lines. -/
theorem records_finalTable {listing : Bytes} (h : Accepts listing) :
    (finalTable listing).Records (requestsOf listing.parsedLines) := by
  have agree := (accepts_iff_agree listing).1 h
  have run := RuleTable.serveAll_spec (requestsOf listing.parsedLines)
  have table : finalTable listing =
      (RuleTable.empty.serveAll (requestsOf listing.parsedLines)).2 :=
    (Converter.processLines_spec listing.lines _).2 (accepts_iff_read.1 h)
  rw [table]
  exact run.2 (run.1.2 agree.2)

end TreebankGrammar
