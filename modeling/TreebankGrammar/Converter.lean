/-
TreebankGrammar/Converter.lean

Converting a grammar listing to a rule file.

A converter takes the lines of a listing one by one into a rule table.  A
line contributes its preterminals first, then its own production.  Reading
stops at the first error; what the line before the error, and the failing
line up to its fault, brought into the table stays there.

Design.  Every step gives the converter afterwards and the error, if there
was one, so that the state after a failure is a value like any other.  The
events are part of the state, in the order in which they happened.
-/
import TreebankGrammar.Error
import TreebankGrammar.Event
import TreebankGrammar.Listing.Normalized
import TreebankGrammar.RuleFile.Writer

namespace TreebankGrammar

/-- A conversion under way: the table so far, the number of lines that are
done, the number of lines between two reports of progress (zero for none),
and the events so far. -/
structure Converter where
  table : RuleTable
  lines : Nat
  interval : Nat
  log : Array Event
  deriving DecidableEq

namespace Converter

/-- The number of lines between two reports of progress if nothing else is
said. -/
def defaultInterval : Nat := 10000

/-- A converter that has seen no line yet. -/
def start (interval : Nat) : Converter := ⟨RuleTable.empty, 0, interval, #[]⟩

/-- The converter after an event. -/
def report (c : Converter) (e : Event) : Converter :=
  { c with log := c.log.push e }

/-! ### Lines -/

/-- Registers the preterminals of a line in order, up to the first
conflict. -/
def register (lineNo : Nat) : List Production → Converter →
    Option Conflict × Converter
  | [], c => (none, c)
  | rule :: rules, c =>
    match c.table.insertPreterminal rule with
    | .error conflict => (some conflict, c)
    | .ok (table, isNew) =>
      let c := { c with table := table }
      register lineNo rules
        (if isNew then c.report (.newPreterminal lineNo rule) else c)

/-- Brings a line in normal form into the table, up to the first
conflict. -/
def add (lineNo : Nat) (line : Normalized) (c : Converter) :
    Option Conflict × Converter :=
  match c.register lineNo line.preterminals with
  | (some conflict, c) => (some conflict, c)
  | (none, c) =>
    match c.table.insert line.rule with
    | .error conflict => (some conflict, c)
    | .ok (table, _) => (none, { c with table := table })

/-- Counts a line as done, and reports progress at every full interval. -/
def count (c : Converter) : Converter :=
  let c := { c with lines := c.lines + 1 }
  if c.interval ≠ 0 ∧ c.lines % c.interval = 0 then
    c.report (.processing c.lines)
  else c

/-- Takes in a line of the listing. -/
def processLine (c : Converter) (text : Text) : Option Error × Converter :=
  let lineNo := c.lines + 1
  match Line.parse text with
  | .error fault => (some (.malformedLine lineNo text fault), c)
  | .ok line =>
    let c := c.report (.parsedLine lineNo line.form line.tag)
    match c.add lineNo line.normalized with
    | (some conflict, c) => (some (.preterminalConflict lineNo conflict), c)
    | (none, c) => (none, c.count)

/-- Takes in lines one after the other, up to the first error. -/
def processLines : List (Option Text) → Converter → Option Error × Converter
  | [], c => (none, c)
  | none :: _, c => (some .invalidText, c)
  | some text :: texts, c =>
    match c.processLine text with
    | (some error, c) => (some error, c)
    | (none, c) => processLines texts c

/-! ### Listings -/

/-- Takes in the lines of a listing, up to the first error. -/
def read (c : Converter) (listing : Bytes) : Option Error × Converter :=
  c.processLines listing.lines

/-- Reports that the listing is done. -/
def finish (c : Converter) : Converter :=
  c.report (.done c.lines c.table.size c.table.ruleCount)

end Converter

/-! ### Conversion -/

/-- What a conversion comes to: the number of rules written or the error,
the bytes written, and the events. -/
structure Conversion where
  result : Except Error Nat
  output : Bytes
  log : Array Event

/-- Writes the rule file of a table to a receiver; gives the number of rules
and the bytes taken. -/
def RuleTable.writeRules (t : RuleTable) (room : Option Nat) :
    Except Error Nat × Bytes :=
  let delivery := t.write room
  (if delivery.complete then .ok t.ruleLines.length else .error .outputFull,
    delivery.taken)

/-- Converts a listing to a rule file.  Nothing is written if a line
fails. -/
def convert (listing : Bytes) (room : Option Nat) : Conversion :=
  match (Converter.start Converter.defaultInterval).read listing with
  | (some error, c) => ⟨.error error, [], c.log⟩
  | (none, c) =>
    let c := c.finish
    let (result, output) := c.table.writeRules room
    ⟨result, output, c.log⟩

end TreebankGrammar
