import TableRoster.Aggregate
import TableRoster.Collection
import TableRoster.Command.Arguments
import TableRoster.Command.Display
import TableRoster.Command.Option
import TableRoster.Command.Run
import TableRoster.Command.Session
import TableRoster.Crash
import TableRoster.Decimal.Binary
import TableRoster.Decimal.Fixed
import TableRoster.Decimal.Reading
import TableRoster.Decimal.Shortest
import TableRoster.Disk.Basic
import TableRoster.Disk.Change
import TableRoster.Disk.Edit
import TableRoster.Disk.RealPath
import TableRoster.Disk.Text
import TableRoster.Disk.Walk
import TableRoster.Drift.Normal
import TableRoster.Drift.Script
import TableRoster.Drift.Unified
import TableRoster.Extraction
import TableRoster.Failure
import TableRoster.Generation
import TableRoster.Glob
import TableRoster.Journal.Event
import TableRoster.Journal.Setup
import TableRoster.Journal.Telling
import TableRoster.Layout
import TableRoster.Main
import TableRoster.Output
import TableRoster.Path
import TableRoster.Pattern.Cursor
import TableRoster.Pattern.Escape
import TableRoster.Pattern.Expr
import TableRoster.Pattern.Fault
import TableRoster.Pattern.Flags
import TableRoster.Pattern.Head
import TableRoster.Pattern.Matching
import TableRoster.Pattern.Piece
import TableRoster.Pattern.Reading
import TableRoster.Policy
import TableRoster.Report
import TableRoster.Scan
import TableRoster.Settings.Basic
import TableRoster.Settings.Layers
import TableRoster.Settings.Reading
import TableRoster.Source.Declaration
import TableRoster.Source.Lexer
import TableRoster.Source.Literal
import TableRoster.Source.Span
import TableRoster.Source.Statement
import TableRoster.Source.Token
import TableRoster.Specifier
import TableRoster.Table
import TableRoster.Table.Reading
import TableRoster.Text.Blank
import TableRoster.Text.Case
import TableRoster.Text.CaseTable
import TableRoster.Text.Find
import TableRoster.Text.Lines
import TableRoster.Text.Name
import TableRoster.Text.NameTable
import TableRoster.Text.Printable
import TableRoster.Text.PrintableTable
import TableRoster.Text.Quoted
import TableRoster.Text.Ranges
import TableRoster.Text.Word
import TableRoster.Text.WordTable
import TableRoster.Timestamp
import TableRoster.Validation
import TableRoster.Value
import TableRoster.Value.Key
import TableRoster.Watch
import TableRoster.Yaml.Binary
import TableRoster.Yaml.Block
import TableRoster.Yaml.Cursor
import TableRoster.Yaml.Document
import TableRoster.Yaml.Lexer
import TableRoster.Yaml.Merge
import TableRoster.Yaml.Moment
import TableRoster.Yaml.Node
import TableRoster.Yaml.Number
import TableRoster.Yaml.Plain
import TableRoster.Yaml.Property
import TableRoster.Yaml.Quoted
import TableRoster.Yaml.Reading
import TableRoster.Yaml.Tag
import TableRoster.Yaml.Token
import TableRoster.Proofs.Agreement
import TableRoster.Proofs.Closing
import TableRoster.Proofs.Collection
import TableRoster.Proofs.Disk.Above
import TableRoster.Proofs.Disk.Apart
import TableRoster.Proofs.Disk.Folders
import TableRoster.Proofs.Disk.Growth
import TableRoster.Proofs.Disk.Leads
import TableRoster.Proofs.Disk.Listing
import TableRoster.Proofs.Disk.RealPath
import TableRoster.Proofs.Disk.Rewrite
import TableRoster.Proofs.Disk.Tree
import TableRoster.Proofs.Disk.Walk
import TableRoster.Proofs.Drift.Counts
import TableRoster.Proofs.Drift.Equal
import TableRoster.Proofs.Drift.Header
import TableRoster.Proofs.Drift.Margins
import TableRoster.Proofs.Drift.Normal
import TableRoster.Proofs.Drift.Script
import TableRoster.Proofs.Drift.Shown
import TableRoster.Proofs.Drift.Unified
import TableRoster.Proofs.Extraction
import TableRoster.Proofs.Generation
import TableRoster.Proofs.Glob
import TableRoster.Proofs.Grouping
import TableRoster.Proofs.InSync
import TableRoster.Proofs.Layout
import TableRoster.Proofs.Output
import TableRoster.Proofs.Path
import TableRoster.Proofs.Path.Normal
import TableRoster.Proofs.Path.Parts
import TableRoster.Proofs.Previous
import TableRoster.Proofs.Quoting
import TableRoster.Proofs.ReadBack
import TableRoster.Proofs.Scan.Files
import TableRoster.Proofs.Scan.Growth
import TableRoster.Proofs.Scan.Modules
import TableRoster.Proofs.Scan.Order
import TableRoster.Proofs.Scan.Rewrite
import TableRoster.Proofs.Settings.Layers
import TableRoster.Proofs.Settings.Loading
import TableRoster.Proofs.Settings.Reading
import TableRoster.Proofs.Source.Annotated
import TableRoster.Proofs.Source.Binding
import TableRoster.Proofs.Source.Clauses
import TableRoster.Proofs.Source.Complete
import TableRoster.Proofs.Source.Element
import TableRoster.Proofs.Source.Exported
import TableRoster.Proofs.Source.Form
import TableRoster.Proofs.Source.Hole
import TableRoster.Proofs.Source.LineEnd
import TableRoster.Proofs.Source.LineNumbers
import TableRoster.Proofs.Source.Lines
import TableRoster.Proofs.Source.Locality
import TableRoster.Proofs.Source.Margins
import TableRoster.Proofs.Source.Mentions
import TableRoster.Proofs.Source.Moved
import TableRoster.Proofs.Source.Origin
import TableRoster.Proofs.Source.Passed
import TableRoster.Proofs.Source.Pieces
import TableRoster.Proofs.Source.Reads
import TableRoster.Proofs.Source.Relocation
import TableRoster.Proofs.Source.RoundTrip
import TableRoster.Proofs.Source.Seam
import TableRoster.Proofs.Source.Settled
import TableRoster.Proofs.Source.Spread
import TableRoster.Proofs.Source.TopLevel
import TableRoster.Proofs.Source.Trailing
import TableRoster.Proofs.Source.Trivia
import TableRoster.Proofs.Source.TypeArguments
import TableRoster.Proofs.Source.Words
import TableRoster.Proofs.Specifier
import TableRoster.Proofs.Symbols
import TableRoster.Proofs.Text.Joined
import TableRoster.Proofs.Validation
import TableRoster.Proofs.Watch.Edits
import TableRoster.Proofs.Watch.History
import TableRoster.Proofs.Watch.Rest
import TableRoster.Proofs.Watch.Rounding
import TableRoster.Proofs.Watch.Run
import TableRoster.Proofs.Watch.Seconds
import TableRoster.Proofs.Watch.Times
