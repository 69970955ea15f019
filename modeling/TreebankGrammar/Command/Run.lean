/-
TreebankGrammar/Command/Run.lean

Runs of the command.

A run converts a listing into a rule file and, if asked to, reads the rule
file back and checks its distributions.  The input is opened before the
output is created, and read after that; so an input that does not exist
leaves everything as it was, and an input that is also the output is empty
when it is read.

Design.  A run works with any access to files, and what it prints is its
result, a `Transcript`.  A run that fails keeps the reports made so far and
ends with the error: what could not be done, and why.
-/
import TreebankGrammar.Command.Arguments
import TreebankGrammar.Command.Files
import TreebankGrammar.Command.Manual
import TreebankGrammar.Converter
import TreebankGrammar.RuleFile.Distribution
import TreebankGrammar.Text.Disarmed

namespace TreebankGrammar.Command

/-! ### Reports -/

/-- A report of a run: its level, who reports, and the text. -/
structure Report where
  level : Level
  source : String
  text : String
  deriving DecidableEq

namespace Report

/-- A report for information by the command itself.  It may name files, so
its text is disarmed. -/
def info (text : String) : Report :=
  ⟨.info, commandName, (Text.disarmed text.toList).string⟩

/-- The report of an event of the conversion. -/
def ofEvent (e : Event) : Report :=
  ⟨e.level, conversionName, e.message ++ " " ++ e.fields⟩

/-- A report as it is printed. -/
def line (r : Report) : String :=
  s!"{r.level.label} {r.source}: {r.text}"

/-- The lines of a report.  There is more than one if it names a file whose
name has a line break. -/
def lines (r : Report) : Text × List Text :=
  cutAll (· == '\n') r.line.toList

/-- The first line of a report, without blanks around it. -/
def headline (r : Report) : Text := Text.trim r.lines.1

/-- The other lines of a report. -/
def continuation (r : Report) : Text :=
  r.lines.2.flatMap fun line => line ++ ['\n']

end Report

/-! ### Failures -/

/-- What could not be done with a file. -/
inductive Failure where
  | opening (path : Text)
  | creating (path : Text)
  | converting (path : Text)
  | writing (path : Text)
  | readingRules (path : Text)
  | verification (path : Text)
  deriving DecidableEq

/-- The wording of a failure. -/
def Failure.message : Failure → String
  | opening path => s!"failed to open `{path.string}`"
  | creating path => s!"failed to create `{path.string}`"
  | converting path => s!"failed to convert `{path.string}`"
  | writing path => s!"failed to write `{path.string}`"
  | readingRules path => s!"failed to read rules from `{path.string}`"
  | verification path => s!"`{path.string}` failed verification"

/-- What a part of a run came to: its reports and, unless it succeeded, what
failed and the cause. -/
structure Outcome where
  reports : List Report
  failure : Option (Failure × String)
  deriving DecidableEq

/-! ### Parts of a run -/

variable {m : Type → Type} [Monad m]

/-- Converts the listing in one file to the rule file in another. -/
def processFiles (files : FileAccess m) (input output : Text) :
    m Outcome := do
  let announced :=
    [Report.info s!"in_file = {input.string}, out_file = {output.string}"]
  match ← files.openInput input with
  | .error fault => return ⟨announced, some (.opening input, fault.message)⟩
  | .ok _ =>
  match ← files.create output with
  | .error fault => return ⟨announced, some (.creating output, fault.message)⟩
  | .ok _ =>
  let begun :=
    announced ++ [Report.info s!"Processing file {input.string} ..."]
  match ← files.content input with
  | .error fault => return ⟨begun, some (.converting input, fault.message)⟩
  | .ok listing =>
  match (Converter.start Converter.defaultInterval).read listing with
  | (some error, converter) =>
    let stopped := begun ++ converter.log.toList.map Report.ofEvent
    return ⟨stopped, some (.converting input, error.message)⟩
  | (none, converter) =>
  let converter := converter.finish
  let converted := begun ++ converter.log.toList.map Report.ofEvent
  match ← files.write output (converter.table.write none).taken with
  | .error fault =>
    return ⟨converted, some (.writing output, fault.message)⟩
  | .ok _ =>
    let count := converter.table.ruleLines.length
    let wrote := s!"Wrote {count} rules to {output.string}"
    return ⟨converted ++ [Report.info wrote], none⟩

/-- Reads a rule file back and checks its distributions. -/
def verifyFile (files : FileAccess m) (path : Text) : m Outcome := do
  match ← files.openInput path with
  | .error fault => return ⟨[], some (.opening path, fault.message)⟩
  | .ok _ =>
  match ← files.content path with
  | .error fault => return ⟨[], some (.readingRules path, fault.message)⟩
  | .ok file =>
  match readRules file with
  | .error error => return ⟨[], some (.readingRules path, error.message)⟩
  | .ok rules =>
  match TreebankGrammar.verify rules with
  | .error error => return ⟨[], some (.verification path, error.message)⟩
  | .ok _ =>
    let verified := s!"Verified {rules.length} rules in {path.string}"
    return ⟨[Report.info verified], none⟩

/-- Does a job: the conversion and, if it succeeds and is to be checked, the
check. -/
def runJob (files : FileAccess m) (job : Job) : m Outcome := do
  let parsed : Report :=
    ⟨.debug, commandName,
      s!"parsed arguments option={job.number} verify={job.verify}"⟩
  let conversion ← processFiles files job.input job.output
  if conversion.failure.isNone && job.verify then
    let check ← verifyFile files job.output
    return ⟨parsed :: conversion.reports ++ check.reports, check.failure⟩
  else return ⟨parsed :: conversion.reports, conversion.failure⟩

/-! ### Transcripts -/

/-- What a run shows: its exit code, what it prints, its reports, and the
error at its end. -/
structure Transcript where
  code : Nat
  stdout : String
  reports : List Report
  stderr : String
  deriving DecidableEq

/-- The exit code of a run whose arguments are not allowed. -/
def usageCode : Nat := 2

/-- The text at the end of a failed run. -/
def failureText (failure : Failure) (cause : String) : String :=
  s!"Error: {failure.message}\n\nCaused by:\n    {cause}\n"

/-- What a job shows; reports for debugging only if it is asked to. -/
def Outcome.transcript (outcome : Outcome) (debug : Bool) : Transcript :=
  let stdout := if debug then "Debug mode\n" else ""
  let reports := outcome.reports.filter fun r => r.level.isShown debug
  match outcome.failure with
  | none => ⟨0, stdout, reports, ""⟩
  | some (failure, cause) => ⟨1, stdout, reports, failureText failure cause⟩

/-- Runs the command with the given arguments. -/
def run (files : FileAccess m) (arguments : List Text) : m Transcript := do
  match request? arguments with
  | none => return ⟨usageCode, "", [], usageText⟩
  | some .showVersion => return ⟨0, versionText, [], ""⟩
  | some .showHelp => return ⟨0, helpText, [], ""⟩
  | some (.convert job) =>
    let outcome ← runJob files job
    return outcome.transcript job.debug

end TreebankGrammar.Command
