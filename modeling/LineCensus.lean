import LineCensus.Classifier.Basic
import LineCensus.Classifier.Scan
import LineCensus.Command.Given
import LineCensus.Command.Grammar
import LineCensus.Command.Help
import LineCensus.Command.Program
import LineCensus.Command.Reports
import LineCensus.Command.Scanning
import LineCensus.Command.Session
import LineCensus.Command.Usage
import LineCensus.Command.Words
import LineCensus.Config.Basic
import LineCensus.Config.Files
import LineCensus.Config.Reading
import LineCensus.Csv
import LineCensus.Decimal.Dyadic
import LineCensus.Decimal.Shortest
import LineCensus.Excess
import LineCensus.Files.Collect
import LineCensus.Files.Glob
import LineCensus.Files.Tree
import LineCensus.Json.Parser
import LineCensus.Json.Printer
import LineCensus.Language.Basic
import LineCensus.Language.Builtin
import LineCensus.Language.Reading
import LineCensus.Log
import LineCensus.Main
import LineCensus.Metrics
import LineCensus.Metrics.Document
import LineCensus.Moment.Basic
import LineCensus.Moment.Iso
import LineCensus.Moment.Reading
import LineCensus.Override
import LineCensus.Path
import LineCensus.Proofs.Classifier.Directives
import LineCensus.Proofs.Classifier.Nesting
import LineCensus.Proofs.Classifier.Opening
import LineCensus.Proofs.Classifier.Progress
import LineCensus.Proofs.Classifier.Rounds
import LineCensus.Proofs.Classifier.States
import LineCensus.Proofs.Classifier.TokenOrder
import LineCensus.Proofs.Classifier.Walk
import LineCensus.Proofs.Command.Failures
import LineCensus.Proofs.Command.Parts
import LineCensus.Proofs.Config.Names
import LineCensus.Proofs.Csv
import LineCensus.Proofs.Csv.Returns
import LineCensus.Proofs.Files.Collect
import LineCensus.Proofs.Files.Named
import LineCensus.Proofs.Files.Places
import LineCensus.Proofs.Json.Bounds
import LineCensus.Proofs.Json.Injective
import LineCensus.Proofs.Json.Limits
import LineCensus.Proofs.Json.Numbers
import LineCensus.Proofs.Json.Pairs
import LineCensus.Proofs.Json.RoundTrip
import LineCensus.Proofs.Json.Strings
import LineCensus.Proofs.Metrics.Exact
import LineCensus.Proofs.Metrics.Phases
import LineCensus.Proofs.Metrics.Times
import LineCensus.Proofs.Moment.Minutes
import LineCensus.Proofs.Moment.Stored
import LineCensus.Proofs.Path
import LineCensus.Proofs.Path.Canonical
import LineCensus.Proofs.Registry.Extensions
import LineCensus.Proofs.Registry.Listing
import LineCensus.Proofs.Registry.Overrides
import LineCensus.Proofs.Registry.Owners
import LineCensus.Proofs.Registry.Replacement
import LineCensus.Proofs.Report.Announced
import LineCensus.Proofs.Report.Build
import LineCensus.Proofs.Report.Canonical
import LineCensus.Proofs.Report.Comparison
import LineCensus.Proofs.Report.Document
import LineCensus.Proofs.Report.Elements
import LineCensus.Proofs.Report.FileChanges
import LineCensus.Proofs.Report.Levels
import LineCensus.Proofs.Report.Loaded
import LineCensus.Proofs.Report.Markup
import LineCensus.Proofs.Report.Numerals
import LineCensus.Proofs.Report.Rewriting
import LineCensus.Proofs.Report.Sheet
import LineCensus.Proofs.Report.Storage
import LineCensus.Proofs.Report.Summary
import LineCensus.Proofs.Scan.Accounts
import LineCensus.Proofs.Scan.Balance
import LineCensus.Proofs.Scan.Filing
import LineCensus.Proofs.Scan.Pool
import LineCensus.Proofs.Scan.Shares
import LineCensus.Proofs.Schema.Bounds
import LineCensus.Proofs.Schema.Fields
import LineCensus.Proofs.Schema.Numerals
import LineCensus.Proofs.Schema.Rewriting
import LineCensus.Proofs.Table
import LineCensus.Proofs.Text.Blank
import LineCensus.Proofs.Text.Codes
import LineCensus.Proofs.Text.Digit
import LineCensus.Proofs.Text.Encoding
import LineCensus.Proofs.Text.Letter
import LineCensus.Proofs.Text.Lines
import LineCensus.Proofs.Text.Lowercase
import LineCensus.Proofs.Text.Order
import LineCensus.Proofs.Text.Pairs
import LineCensus.Proofs.Text.Search
import LineCensus.Proofs.Text.Utf16
import LineCensus.Proofs.Text.Utf8
import LineCensus.Proofs.Value
import LineCensus.Proofs.Xml.Content
import LineCensus.Proofs.Xml.Documents
import LineCensus.Proofs.Xml.Elements
import LineCensus.Proofs.Xml.Texts
import LineCensus.Proofs.Xml.Values
import LineCensus.Registry
import LineCensus.Report.Basic
import LineCensus.Report.Comparison
import LineCensus.Report.Console
import LineCensus.Report.Document
import LineCensus.Report.Files
import LineCensus.Report.Sheet
import LineCensus.Report.Storage
import LineCensus.Report.Validity
import LineCensus.Scan.Basic
import LineCensus.Scan.Fault
import LineCensus.Scan.Journal
import LineCensus.Schema.Issue
import LineCensus.Schema.Scalar
import LineCensus.Table
import LineCensus.Tally
import LineCensus.Text.Blank
import LineCensus.Text.CaseTable
import LineCensus.Text.Digit
import LineCensus.Text.Encoding
import LineCensus.Text.Letter
import LineCensus.Text.Lines
import LineCensus.Text.Lowercase
import LineCensus.Text.Order
import LineCensus.Text.PrintTable
import LineCensus.Text.Quoted
import LineCensus.Text.Search
import LineCensus.Text.Sha256
import LineCensus.Text.Similar
import LineCensus.Text.Utf16
import LineCensus.Text.Utf8
import LineCensus.Toml.Parser
import LineCensus.Toml.Quoted
import LineCensus.Toml.Scalar
import LineCensus.Toml.Tree
import LineCensus.Value
import LineCensus.Xml.Declaration
import LineCensus.Xml.Element
import LineCensus.Xml.Entity
import LineCensus.Xml.NameTable
import LineCensus.Xml.Names
import LineCensus.Xml.Parser
import LineCensus.Xml.Token
