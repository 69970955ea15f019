/-
TreebankGrammar/Command/Manual.lean

What the command says about itself.
-/

namespace TreebankGrammar.Command

/-- The name of the command, which is also the name under which it
reports. -/
def commandName : String := "lt2grammar"

/-- The name under which conversions report. -/
def conversionName : String := "pcfg_rules"

/-- The answer to a request for the version. -/
def versionText : String := commandName ++ " 1.0.0\n"

/-- How the command is called. -/
def usageText : String :=
  s!"Usage: {commandName} [OPTIONS] <IN_FILE> <OUT_FILE>\n"

/-- The answer to a request for help. -/
def helpText : String :=
  "Converts a flat treebank grammar listing into a uniform-probability " ++
  "PCFG rule file\n\n" ++ usageText ++
  "\nArguments:\n" ++
  "  <IN_FILE>   Grammar listing to read\n" ++
  "  <OUT_FILE>  Rule file to write\n" ++
  "\nOptions:\n" ++
  "  -o, --option <OPT>  Reserved, has no effect on the conversion " ++
  "[default: 0]\n" ++
  "  -d, --debug         Enable debugging mode\n" ++
  "      --verify        Read the rule file back after writing it and " ++
  "check each tag's distribution\n" ++
  "  -v, --version       Print version information\n" ++
  "  -h, --help          Print help\n"

end TreebankGrammar.Command
