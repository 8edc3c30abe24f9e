import PixelAudit.Audit.Export
import PixelAudit.Audit.LiveRun
import PixelAudit.Audit.Outcome
import PixelAudit.Audit.Report
import PixelAudit.Audit.Results
import PixelAudit.Audit.Validator
import PixelAudit.Calendar
import PixelAudit.Catalog.Artifact
import PixelAudit.Catalog.Compiled
import PixelAudit.Catalog.Node
import PixelAudit.Catalog.Sources
import PixelAudit.Catalog.Store
import PixelAudit.CommandLine.Arguments
import PixelAudit.CommandLine.Commands
import PixelAudit.CommandLine.Options
import PixelAudit.Config.Product
import PixelAudit.Config.Root
import PixelAudit.Csv.Table
import PixelAudit.Decimal.Binary64
import PixelAudit.Decimal.Numeral
import PixelAudit.Decimal.Shortest
import PixelAudit.Definition.Fault
import PixelAudit.Definition.Record
import PixelAudit.Definition.Spec
import PixelAudit.Dict
import PixelAudit.Document.Decoder
import PixelAudit.Event
import PixelAudit.Failure
import PixelAudit.Files.Disk
import PixelAudit.Files.Document
import PixelAudit.Files.Name
import PixelAudit.Files.Path
import PixelAudit.Files.Tree
import PixelAudit.Json.Fault
import PixelAudit.Json.Reader
import PixelAudit.Json.Value
import PixelAudit.Main
import PixelAudit.Pattern.Anchored
import PixelAudit.Pattern.Expr
import PixelAudit.Pattern.Fold
import PixelAudit.Pattern.Form
import PixelAudit.Pattern.Named
import PixelAudit.Pattern.Parser
import PixelAudit.Pattern.Room
import PixelAudit.Schema.Context
import PixelAudit.Schema.Family
import PixelAudit.Schema.Params
import PixelAudit.Schema.Suffixes
import PixelAudit.Schema.ValueCheck
import PixelAudit.Schema.Violation
import PixelAudit.Text.Age
import PixelAudit.Text.Blank
import PixelAudit.Text.Break
import PixelAudit.Text.CaseTable
import PixelAudit.Text.Category
import PixelAudit.Text.CodeSet
import PixelAudit.Text.FoldTable
import PixelAudit.Text.LowerCase
import PixelAudit.Text.Percent
import PixelAudit.Text.Pieces
import PixelAudit.Text.Property
import PixelAudit.Text.Quoted
import PixelAudit.Text.Recent
import PixelAudit.Text.Script
import PixelAudit.Text.Utf8
import PixelAudit.Version
import PixelAudit.Yaml.Content
import PixelAudit.Yaml.Cursor
import PixelAudit.Yaml.Document
import PixelAudit.Yaml.Label
import PixelAudit.Yaml.Lexer
import PixelAudit.Yaml.Node
import PixelAudit.Yaml.Scalar
import PixelAudit.Yaml.Token
import PixelAudit.Proofs.Audit.Classification
import PixelAudit.Proofs.Audit.Faults
import PixelAudit.Proofs.Catalog.Compiled
import PixelAudit.Proofs.Catalog.Declared
import PixelAudit.Proofs.Catalog.Inheritance
import PixelAudit.Proofs.Catalog.Lookup
import PixelAudit.Proofs.Catalog.Reload
import PixelAudit.Proofs.Catalog.StoredTree
import PixelAudit.Proofs.Catalog.Tree
import PixelAudit.Proofs.Definition.FieldKinds
import PixelAudit.Proofs.Definition.Stored
import PixelAudit.Proofs.Definition.VersionText
import PixelAudit.Proofs.Document.Readback
import PixelAudit.Proofs.Document.Records
import PixelAudit.Proofs.Json.Layout
import PixelAudit.Proofs.Json.Scan
import PixelAudit.Proofs.Tables
import PixelAudit.Proofs.Text.Segments
import PixelAudit.Proofs.Text.Utf8
import PixelAudit.Proofs.Audit.Samples
import PixelAudit.Proofs.Audit.FanOut
import PixelAudit.Proofs.Audit.History
import PixelAudit.Proofs.Audit.Merging
import PixelAudit.Proofs.Text.Folding
import PixelAudit.Proofs.Catalog.OwnName
import PixelAudit.Proofs.Schema.Gates
import PixelAudit.Proofs.Schema.Governing
import PixelAudit.Proofs.VersionOrder
import PixelAudit.Proofs.Definition.Equality
import PixelAudit.Proofs.Schema.Congruence
import PixelAudit.Proofs.Catalog.Congruence
import PixelAudit.Proofs.Catalog.SourceOrder
import PixelAudit.Proofs.Document.Depth
import PixelAudit.Proofs.Decimal.Rounding
import PixelAudit.Proofs.Json.Numbers
import PixelAudit.Proofs.Definition.Depth
import PixelAudit.Proofs.Catalog.Depth
import PixelAudit.Proofs.Schema.Erasure
import PixelAudit.Proofs.Audit.VersionGate
import PixelAudit.Proofs.Catalog.Locality
import PixelAudit.Proofs.Audit.LetterCase
import PixelAudit.Proofs.Joining
import PixelAudit.Proofs.Audit.Aggregation
import PixelAudit.Proofs.Audit.RowAccounts
import PixelAudit.Proofs.Catalog.Shape
import PixelAudit.Proofs.Catalog.Refusal
import PixelAudit.Proofs.Schema.SuffixSplit
import PixelAudit.Proofs.Schema.LiteralSuffixes
import PixelAudit.Proofs.Csv.Written
import PixelAudit.Proofs.Audit.Cancellation
import PixelAudit.Proofs.Catalog.Conflict
import PixelAudit.Proofs.Document.Members
import PixelAudit.Proofs.Config.Declarations
import PixelAudit.Proofs.Config.Loading
import PixelAudit.Proofs.Catalog.Floor
import PixelAudit.Proofs.Definition.Accepted
import PixelAudit.Proofs.Schema.OwnParameters
import PixelAudit.Proofs.Catalog.Collision
import PixelAudit.Proofs.Text.PercentCoding
import PixelAudit.Proofs.Json.TextList
import PixelAudit.Proofs.Audit.WireForms
import PixelAudit.Proofs.Catalog.Blame
import PixelAudit.Proofs.Pattern.Tails
import PixelAudit.Proofs.Pattern.Escapes
import PixelAudit.Proofs.Pattern.Classes
import PixelAudit.Proofs.Pattern.Alternatives
import PixelAudit.Proofs.Pattern.Matching
import PixelAudit.Proofs.Pattern.Anchoring
import PixelAudit.Proofs.Schema.PatternChecks
import PixelAudit.Proofs.VersionPadding
import PixelAudit.Proofs.Definition.VersionGrammar
import PixelAudit.Proofs.Catalog.Remainders
import PixelAudit.Proofs.Audit.SuffixFindings
import PixelAudit.Proofs.Text.LowerAscii
import PixelAudit.Proofs.Schema.ParameterOrder
import PixelAudit.Proofs.Audit.VersionParameter
import PixelAudit.Proofs.Decimal.Integers
import PixelAudit.Proofs.Schema.IntegerBounds
import PixelAudit.Proofs.Audit.SummaryNotes
import PixelAudit.Proofs.Schema.IndexSafety
import PixelAudit.Proofs.Files.Paths
import PixelAudit.Proofs.Files.Listing
import PixelAudit.Proofs.Config.Discovery
