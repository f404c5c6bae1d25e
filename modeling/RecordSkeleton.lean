import RecordSkeleton.Binary64
import RecordSkeleton.Bracket
import RecordSkeleton.Catalog
import RecordSkeleton.Clipboard
import RecordSkeleton.Command
import RecordSkeleton.CommandLine.Arguments
import RecordSkeleton.CommandLine.Program
import RecordSkeleton.CommandLine.Snapshot
import RecordSkeleton.Declaration
import RecordSkeleton.Document
import RecordSkeleton.Field
import RecordSkeleton.FileTree
import RecordSkeleton.Generation
import RecordSkeleton.Java.ConstructorSite
import RecordSkeleton.Java.Header
import RecordSkeleton.Java.Mask
import RecordSkeleton.Java.Source
import RecordSkeleton.Log
import RecordSkeleton.Main
import RecordSkeleton.Marker
import RecordSkeleton.Moment
import RecordSkeleton.Output
import RecordSkeleton.Path
import RecordSkeleton.ProjectCatalog
import RecordSkeleton.ProjectRoot
import RecordSkeleton.Run
import RecordSkeleton.Settings.Basic
import RecordSkeleton.Settings.Conversion
import RecordSkeleton.Settings.Layers
import RecordSkeleton.SourceFile
import RecordSkeleton.SourceFormat
import RecordSkeleton.Text.Basic
import RecordSkeleton.Text.CodeRanges
import RecordSkeleton.Text.Digit
import RecordSkeleton.Text.Integer
import RecordSkeleton.Text.Lowercase
import RecordSkeleton.Text.Numeral
import RecordSkeleton.Text.Printable
import RecordSkeleton.Text.Quoted
import RecordSkeleton.Text.ShellWords
import RecordSkeleton.Text.Utf8
import RecordSkeleton.Text.Wildcard
import RecordSkeleton.Text.WordChar
import RecordSkeleton.Toml.DateTime
import RecordSkeleton.Toml.Document
import RecordSkeleton.Toml.Lexeme
import RecordSkeleton.Toml.Value
import RecordSkeleton.TypeExpr
import RecordSkeleton.TypeTable
import RecordSkeleton.Value
import RecordSkeleton.Proofs.Bracket.Commas
import RecordSkeleton.Proofs.Bracket.Joining
import RecordSkeleton.Proofs.Bracket.Nesting
import RecordSkeleton.Proofs.Bracket.Partner
import RecordSkeleton.Proofs.Command.History
import RecordSkeleton.Proofs.Command.Outcome
import RecordSkeleton.Proofs.CommandLine.Pipeline
import RecordSkeleton.Proofs.CommandLine.Process
import RecordSkeleton.Proofs.CommandLine.Status
import RecordSkeleton.Proofs.Declaration.Header
import RecordSkeleton.Proofs.Declaration.Preference
import RecordSkeleton.Proofs.FileTree.Readable
import RecordSkeleton.Proofs.FileTree.WellFormed
import RecordSkeleton.Proofs.Generation.Containers
import RecordSkeleton.Proofs.Generation.Failing
import RecordSkeleton.Proofs.Generation.FirstFailure
import RecordSkeleton.Proofs.Generation.FixedText
import RecordSkeleton.Proofs.Generation.Guard
import RecordSkeleton.Proofs.Generation.Limit
import RecordSkeleton.Proofs.Generation.Lookups
import RecordSkeleton.Proofs.Generation.Preference
import RecordSkeleton.Proofs.Generation.Reading
import RecordSkeleton.Proofs.Generation.References
import RecordSkeleton.Proofs.Generation.Shift
import RecordSkeleton.Proofs.Generation.Similar
import RecordSkeleton.Proofs.Generation.Undecided
import RecordSkeleton.Proofs.Java.Calls
import RecordSkeleton.Proofs.Java.ClassBody
import RecordSkeleton.Proofs.Java.Components
import RecordSkeleton.Proofs.Java.ConstructorPrefix
import RecordSkeleton.Proofs.Java.Constructors
import RecordSkeleton.Proofs.Java.FieldList
import RecordSkeleton.Proofs.Java.Forest
import RecordSkeleton.Proofs.Java.Hidden
import RecordSkeleton.Proofs.Java.MarkerPrefix
import RecordSkeleton.Proofs.Java.Masking
import RecordSkeleton.Proofs.Java.MemberBoundary
import RecordSkeleton.Proofs.Java.Opaque
import RecordSkeleton.Proofs.Java.RecordHeader
import RecordSkeleton.Proofs.Java.Remasking
import RecordSkeleton.Proofs.Java.Scan
import RecordSkeleton.Proofs.Java.Spans
import RecordSkeleton.Proofs.Java.Spelling
import RecordSkeleton.Proofs.Java.TextBlock
import RecordSkeleton.Proofs.Json.Readable
import RecordSkeleton.Proofs.Marker.Leading
import RecordSkeleton.Proofs.Moment.Calendar
import RecordSkeleton.Proofs.Moment.Quoted
import RecordSkeleton.Proofs.ProjectCatalog.Contents
import RecordSkeleton.Proofs.ProjectCatalog.Documents
import RecordSkeleton.Proofs.ProjectCatalog.History
import RecordSkeleton.Proofs.ProjectCatalog.Index
import RecordSkeleton.Proofs.ProjectCatalog.Libraries
import RecordSkeleton.Proofs.ProjectCatalog.Reach
import RecordSkeleton.Proofs.ProjectCatalog.Walk
import RecordSkeleton.Proofs.Settings.Document
import RecordSkeleton.Proofs.Settings.Loading
import RecordSkeleton.Proofs.Stop
import RecordSkeleton.Proofs.Text.Identifier
import RecordSkeleton.Proofs.Text.Words
import RecordSkeleton.Proofs.Trace
import RecordSkeleton.Proofs.TypeExpr.Print
import RecordSkeleton.Proofs.TypeExpr.Spelling
