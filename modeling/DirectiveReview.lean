import DirectiveReview.Directive
import DirectiveReview.IgnoreList
import DirectiveReview.Text.Quoted
import DirectiveReview.Number.Binary64
import DirectiveReview.Number.Decimal
import DirectiveReview.Docs.Lookup
import DirectiveReview.Docs.Process
import DirectiveReview.Docs.Resolver
import DirectiveReview.Docs.Signal
import DirectiveReview.Docs.Tool
import DirectiveReview.Json.Value
import DirectiveReview.Report.Document
import DirectiveReview.Report.Human
import DirectiveReview.Review.Narration
import DirectiveReview.Toml.Document
import DirectiveReview.Settings.Table
import DirectiveReview.Settings.Template
import DirectiveReview.Files.Path
import DirectiveReview.Files.Tree
import DirectiveReview.Settings.Listing
import DirectiveReview.Settings.Load
import DirectiveReview.CommandLine.Arguments
import DirectiveReview.CommandLine.Check
import DirectiveReview.CommandLine.Program
import DirectiveReview.CommandLine.Reach
import DirectiveReview.Main
import DirectiveReview.Proofs.Except
import DirectiveReview.Proofs.Diff.HunkHeader
import DirectiveReview.Proofs.Diff.Written
import DirectiveReview.Proofs.Diff.Sections
import DirectiveReview.Proofs.Review.Sections
import DirectiveReview.Proofs.Diff.Rendered
import DirectiveReview.Proofs.Diff.Names
import DirectiveReview.Proofs.Diff.Numbering
import DirectiveReview.Proofs.Diff.RoundTrip
import DirectiveReview.Proofs.Diff.GitNames
import DirectiveReview.Proofs.Diff.Positions
import DirectiveReview.Proofs.Diff.Trailing
import DirectiveReview.Proofs.Review.Trailing
import DirectiveReview.Proofs.Docs.Memory
import DirectiveReview.Proofs.Docs.Session
import DirectiveReview.Proofs.Diff.Failures
import DirectiveReview.Proofs.Diff.HeaderForm
import DirectiveReview.Proofs.Diff.Chunks
import DirectiveReview.Proofs.Diff.Shares
import DirectiveReview.Proofs.Diff.Breaks
import DirectiveReview.Proofs.Review.Failures
import DirectiveReview.Proofs.Review.Comments
import DirectiveReview.Proofs.Report.Writable
import DirectiveReview.Proofs.Number.Rounding
import DirectiveReview.Proofs.Number.Nearest
import DirectiveReview.Proofs.Number.Shortest
import DirectiveReview.Proofs.Settings.Sources
import DirectiveReview.Proofs.Settings.Reading
import DirectiveReview.Proofs.Settings.Loaded
import DirectiveReview.Proofs.CommandLine.Failures
import DirectiveReview.Proofs.CommandLine.Endings
import DirectiveReview.Proofs.CommandLine.Headers
import DirectiveReview.Proofs.CommandLine.Requests
import DirectiveReview.Proofs.Report.Printed
import DirectiveReview.Proofs.Review.Links
import DirectiveReview.Proofs.CommandLine.Lookups
import DirectiveReview.Proofs.Files.Writing
import DirectiveReview.Proofs.Files.Paths
import DirectiveReview.Proofs.CommandLine.Files
import DirectiveReview.Proofs.Settings.Keys
import DirectiveReview.Proofs.CommandLine.Overrides
import DirectiveReview.Proofs.Settings.Documents
import DirectiveReview.Proofs.Text.Searches
import DirectiveReview.Proofs.Text.Ascii
import DirectiveReview.Proofs.Directive
import DirectiveReview.Proofs.Review.Ignoring
import DirectiveReview.Proofs.Diff.LineByLine
import DirectiveReview.Proofs.Settings.Places
import DirectiveReview.Proofs.Review.SingleLines
import DirectiveReview.Proofs.Review.Bodies
import DirectiveReview.Proofs.Report.Layout
import DirectiveReview.Proofs.Json.Strings
import DirectiveReview.Proofs.Json.Reader
import DirectiveReview.Proofs.Json.Numerals
import DirectiveReview.Proofs.Toml.Rounded
import DirectiveReview.Proofs.Report.Decoded
import DirectiveReview.Proofs.Settings.NormalForm
