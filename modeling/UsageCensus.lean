import UsageCensus.Census
import UsageCensus.Census.Aspect
import UsageCensus.Census.Breakdown
import UsageCensus.Census.Combination
import UsageCensus.Census.Customization
import UsageCensus.Census.Inventory
import UsageCensus.Census.LineOwnership
import UsageCensus.Census.PropSurface
import UsageCensus.Command.Analyze
import UsageCensus.Command.Arguments
import UsageCensus.Command.Basic
import UsageCensus.Command.Inspect
import UsageCensus.Command.Redetect
import UsageCensus.Command.Run
import UsageCensus.Config
import UsageCensus.Config.Load
import UsageCensus.Console
import UsageCensus.Date
import UsageCensus.Defaults.Detection
import UsageCensus.Defaults.Known
import UsageCensus.Defaults.Listing
import UsageCensus.Defaults.Stored
import UsageCensus.Document.Access
import UsageCensus.Document.Amount
import UsageCensus.Document.Basic
import UsageCensus.Document.Display
import UsageCensus.Document.Key
import UsageCensus.Document.Printer
import UsageCensus.Document.Reader
import UsageCensus.Document.Saved
import UsageCensus.Fault
import UsageCensus.Files.Discovery
import UsageCensus.Files.Path
import UsageCensus.Files.Store
import UsageCensus.Files.Tree
import UsageCensus.Glob
import UsageCensus.Glob.Braces
import UsageCensus.Glob.Wildcard
import UsageCensus.Host
import UsageCensus.Library
import UsageCensus.Main
import UsageCensus.Number.Binary64
import UsageCensus.Number.Decimal
import UsageCensus.Number.Share
import UsageCensus.Proofs.Attempts
import UsageCensus.Proofs.Census.Balance
import UsageCensus.Proofs.Census.Breakdown
import UsageCensus.Proofs.Census.Combinations
import UsageCensus.Proofs.Census.Customizations
import UsageCensus.Proofs.Census.Details
import UsageCensus.Proofs.Census.FileOrder
import UsageCensus.Proofs.Census.MarkedLines
import UsageCensus.Proofs.Census.Matches
import UsageCensus.Proofs.Census.Ownership
import UsageCensus.Proofs.Census.References
import UsageCensus.Proofs.Census.Rendered
import UsageCensus.Proofs.Census.Reports
import UsageCensus.Proofs.Census.Requests
import UsageCensus.Proofs.Census.Surface
import UsageCensus.Proofs.Census.TagCounts
import UsageCensus.Proofs.Command.AnyReports
import UsageCensus.Proofs.Command.Redetect
import UsageCensus.Proofs.Command.Survey
import UsageCensus.Proofs.Config.Reading
import UsageCensus.Proofs.Defaults.AnyReports
import UsageCensus.Proofs.Defaults.Counting
import UsageCensus.Proofs.Defaults.Grouping
import UsageCensus.Proofs.Defaults.Judgement
import UsageCensus.Proofs.Defaults.Listed
import UsageCensus.Proofs.Defaults.Ordering
import UsageCensus.Proofs.Defaults.Redetection
import UsageCensus.Proofs.Defaults.Reports
import UsageCensus.Proofs.Defaults.Snippet
import UsageCensus.Proofs.Defaults.Ties
import UsageCensus.Proofs.Document.Amounts
import UsageCensus.Proofs.Document.Characters
import UsageCensus.Proofs.Document.Decimals
import UsageCensus.Proofs.Document.Numerals
import UsageCensus.Proofs.Document.Quoted
import UsageCensus.Proofs.Document.Restored
import UsageCensus.Proofs.Document.RoundTrip
import UsageCensus.Proofs.Document.Saving
import UsageCensus.Proofs.Files.Changes
import UsageCensus.Proofs.Files.Discovery
import UsageCensus.Proofs.Files.Fresh
import UsageCensus.Proofs.Files.Places
import UsageCensus.Proofs.Files.SavedReports
import UsageCensus.Proofs.Files.Walk
import UsageCensus.Proofs.Files.Writing
import UsageCensus.Proofs.Glob.Alternatives
import UsageCensus.Proofs.Glob.Below
import UsageCensus.Proofs.Glob.Directories
import UsageCensus.Proofs.HostFaults
import UsageCensus.Proofs.Number.Nearest
import UsageCensus.Proofs.Number.Percent
import UsageCensus.Proofs.Orderless
import UsageCensus.Proofs.PropValue.Keys
import UsageCensus.Proofs.PropValue.Reflow
import UsageCensus.Proofs.Report.CombinationFiles
import UsageCensus.Proofs.Report.CombinationTexts
import UsageCensus.Proofs.Report.Combinations
import UsageCensus.Proofs.Report.ComponentSheet
import UsageCensus.Proofs.Report.PropShares
import UsageCensus.Proofs.Report.Records
import UsageCensus.Proofs.Sandbox
import UsageCensus.Proofs.Source.AttributePlaces
import UsageCensus.Proofs.Source.AttributeSteps
import UsageCensus.Proofs.Source.Braces
import UsageCensus.Proofs.Source.ClosingBraces
import UsageCensus.Proofs.Source.Elements
import UsageCensus.Proofs.Source.Extents
import UsageCensus.Proofs.Source.ImportDocuments
import UsageCensus.Proofs.Source.ImportReaders
import UsageCensus.Proofs.Source.ImportedNames
import UsageCensus.Proofs.Source.InlineStyles
import UsageCensus.Proofs.Source.QuotedValues
import UsageCensus.Proofs.Source.RenamedTags
import UsageCensus.Proofs.Source.TagNames
import UsageCensus.Proofs.Source.TagSpans
import UsageCensus.Proofs.Source.Traceable
import UsageCensus.Proofs.Source.WrapperAttributes
import UsageCensus.Proofs.Source.WrapperHeads
import UsageCensus.Proofs.Source.WrittenAttributes
import UsageCensus.Proofs.Source.WrittenImports
import UsageCensus.Proofs.Source.WrittenStyles
import UsageCensus.Proofs.Source.WrittenTags
import UsageCensus.Proofs.Source.WrittenWrappers
import UsageCensus.Proofs.Sums
import UsageCensus.Proofs.Tables
import UsageCensus.Proofs.Text.LineIndex
import UsageCensus.Proofs.Text.Lines
import UsageCensus.Proofs.Text.Order
import UsageCensus.Proofs.Text.Reading
import UsageCensus.Proofs.Text.Searching
import UsageCensus.Proofs.Text.Surrogates
import UsageCensus.PropValue
import UsageCensus.Report.Csv
import UsageCensus.Report.Lookup
import UsageCensus.Report.Markdown
import UsageCensus.Report.Outputs
import UsageCensus.Report.Sheet
import UsageCensus.Room
import UsageCensus.Sandbox
import UsageCensus.Sorting.Merge
import UsageCensus.Sorting.Runs
import UsageCensus.Source.Attribute
import UsageCensus.Source.Import
import UsageCensus.Source.Scan
import UsageCensus.Source.Style
import UsageCensus.Source.Styled
import UsageCensus.Source.Tag
import UsageCensus.Table
import UsageCensus.Text.Align
import UsageCensus.Text.Alphanumeric
import UsageCensus.Text.Class
import UsageCensus.Text.DecimalDigit
import UsageCensus.Text.Integer
import UsageCensus.Text.Line
import UsageCensus.Text.Printable
import UsageCensus.Text.Quoted
import UsageCensus.Text.Ranges
import UsageCensus.Text.Reader
import UsageCensus.Text.Search
import UsageCensus.Text.Surrogates
import UsageCensus.Text.Trim
import UsageCensus.Text.Uppercase
import UsageCensus.Text.Utf8
