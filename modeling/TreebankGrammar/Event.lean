/-
TreebankGrammar/Event.lean

What a conversion reports while it runs.

An event has a level and a message with named fields.  Progress is reported
for information, single lines only for debugging.
-/
import TreebankGrammar.Listing.Line
import TreebankGrammar.Production
import TreebankGrammar.Text.Quoted

namespace TreebankGrammar

/-- How important a report is. -/
inductive Level where
  | info
  | debug
  deriving DecidableEq

namespace Level

/-- The name of a level. -/
def label : Level → String
  | info => "INFO"
  | debug => "DEBUG"

/-- Whether reports of a level are shown; those of level `info` always
are. -/
def isShown (debugging : Bool) : Level → Bool
  | info => true
  | debug => debugging

end Level

/-- An event of a conversion. -/
inductive Event where
  /-- A line was taken apart. -/
  | parsedLine (lineNo : Nat) (form : LineForm) (tag : Text)
  /-- A preterminal got its production. -/
  | newPreterminal (lineNo : Nat) (rule : Production)
  /-- So many lines are done, and there may be more. -/
  | processing (lines : Nat)
  /-- The listing is done. -/
  | done (lines tags rules : Nat)
  deriving DecidableEq

namespace Event

/-- The level of an event. -/
def level : Event → Level
  | parsedLine .. => .debug
  | newPreterminal .. => .debug
  | processing .. => .info
  | done .. => .info

/-- The message of an event, without its fields. -/
def message : Event → String
  | parsedLine .. => "parsed line"
  | newPreterminal .. => "new preterminal"
  | processing .. => "processing"
  | done .. => "done"

/-- The fields of an event as text, the tag of a line in quotes. -/
def fields : Event → String
  | parsedLine lineNo form tag =>
    s!"line_no={lineNo} form={form.label} tag={(Text.quoted tag).string}"
  | newPreterminal lineNo rule =>
    s!"line_no={lineNo} rule={rule.written.string}"
  | processing lines => s!"lines={lines}"
  | done lines tags rules => s!"lines={lines} tags={tags} rules={rules}"

end Event

end TreebankGrammar
