import AttributeLint.Assoc
import AttributeLint.Checker
import AttributeLint.Clock
import AttributeLint.CommandLine.Arguments
import AttributeLint.CommandLine.Session
import AttributeLint.Decimal.Double
import AttributeLint.Decimal.Fixed
import AttributeLint.Decimal.Shortest
import AttributeLint.Diagnostic
import AttributeLint.Dump
import AttributeLint.Element
import AttributeLint.Fault
import AttributeLint.Fix
import AttributeLint.Folder
import AttributeLint.Json.Display
import AttributeLint.Json.Printer
import AttributeLint.Json.Reader
import AttributeLint.Json.Token
import AttributeLint.Json.Value
import AttributeLint.Limits
import AttributeLint.Location
import AttributeLint.Log
import AttributeLint.Main
import AttributeLint.Name
import AttributeLint.Options
import AttributeLint.Path
import AttributeLint.Proofs.Accounting
import AttributeLint.Proofs.BuiltVocabulary
import AttributeLint.Proofs.CanonicalOptions
import AttributeLint.Proofs.Composition
import AttributeLint.Proofs.Conservation
import AttributeLint.Proofs.DataNames
import AttributeLint.Proofs.DeclarationOrder
import AttributeLint.Proofs.Declared
import AttributeLint.Proofs.DumpFormat
import AttributeLint.Proofs.Excerpts
import AttributeLint.Proofs.FileSuppression
import AttributeLint.Proofs.FixedOutput
import AttributeLint.Proofs.Grouping
import AttributeLint.Proofs.Ignoring
import AttributeLint.Proofs.InStep
import AttributeLint.Proofs.JsonLines
import AttributeLint.Proofs.JsonText
import AttributeLint.Proofs.Judgement
import AttributeLint.Proofs.Locality
import AttributeLint.Proofs.LookupKeys
import AttributeLint.Proofs.Lowercasing
import AttributeLint.Proofs.Merging
import AttributeLint.Proofs.Newlines
import AttributeLint.Proofs.OptionValues
import AttributeLint.Proofs.PathPlacement
import AttributeLint.Proofs.Pipeline
import AttributeLint.Proofs.PlainLines
import AttributeLint.Proofs.Renaming
import AttributeLint.Proofs.Rendering
import AttributeLint.Proofs.Repair
import AttributeLint.Proofs.Replacement
import AttributeLint.Proofs.ReportAgreement
import AttributeLint.Proofs.Respelling
import AttributeLint.Proofs.Selection
import AttributeLint.Proofs.Session
import AttributeLint.Proofs.Splice
import AttributeLint.Proofs.StandardVocabulary
import AttributeLint.Proofs.SuppressionHistory
import AttributeLint.Proofs.Survey
import AttributeLint.Proofs.WithinLimits
import AttributeLint.Report.Ansi
import AttributeLint.Report.Colour
import AttributeLint.Report.Render
import AttributeLint.Report.Reporter
import AttributeLint.Report.Sarif
import AttributeLint.Report.Tally
import AttributeLint.Results
import AttributeLint.Runner
import AttributeLint.Suppression
import AttributeLint.Text.CaseIgnorable
import AttributeLint.Text.Cased
import AttributeLint.Text.CodeRange
import AttributeLint.Text.Digit
import AttributeLint.Text.Glob
import AttributeLint.Text.Hex
import AttributeLint.Text.Lines
import AttributeLint.Text.Lowercase
import AttributeLint.Text.LowercaseRows
import AttributeLint.Text.Printable
import AttributeLint.Text.Quoted
import AttributeLint.Text.Sorted
import AttributeLint.Text.Utf8
import AttributeLint.Verdict
import AttributeLint.Vocabulary.Basic
import AttributeLint.Vocabulary.Build
import AttributeLint.Vocabulary.Standard
