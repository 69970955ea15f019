import TreebankGrammar.Command.FileSystem
import TreebankGrammar.Main
import TreebankGrammar.Proofs.Agreement
import TreebankGrammar.Proofs.Acceptance
import TreebankGrammar.Proofs.Language
import TreebankGrammar.Proofs.Rounding
import TreebankGrammar.Proofs.ProbabilityText
import TreebankGrammar.Proofs.Writable
import TreebankGrammar.Proofs.Reachable
import TreebankGrammar.Proofs.RoundTrip
import TreebankGrammar.Proofs.LineOrder
import TreebankGrammar.Proofs.Coherence
import TreebankGrammar.Proofs.FileLines
import TreebankGrammar.Proofs.Aggregation
import TreebankGrammar.Proofs.Rereading
import TreebankGrammar.Proofs.Precision
import TreebankGrammar.Proofs.DecimalPrecision
import TreebankGrammar.Proofs.Totals
import TreebankGrammar.Proofs.Permanence
import TreebankGrammar.Proofs.Replay
import TreebankGrammar.Proofs.FileAccess
import TreebankGrammar.Proofs.CommandRun
import TreebankGrammar.Proofs.PlainNames
import TreebankGrammar.Proofs.Balance
import TreebankGrammar.Proofs.FailingLine
import TreebankGrammar.Proofs.RuleSyntax
import TreebankGrammar.Proofs.Rendering
import TreebankGrammar.Proofs.NumeralValue
import TreebankGrammar.Proofs.NearestDecimal
import TreebankGrammar.Proofs.ScientificForm
import TreebankGrammar.Proofs.StableText
import TreebankGrammar.Proofs.WrittenSum
import TreebankGrammar.Proofs.TableRuns
import TreebankGrammar.Proofs.LineForms
import TreebankGrammar.Proofs.NormalForm
import TreebankGrammar.Proofs.ListingParts
import TreebankGrammar.Proofs.LimitedOutput
import TreebankGrammar.Proofs.WrittenForms
import TreebankGrammar.Proofs.BlankLines
import TreebankGrammar.Proofs.ReportedEvents
