import SchemaDelta.Build.Column
import SchemaDelta.Build.Schema
import SchemaDelta.Build.Table
import SchemaDelta.Catalog
import SchemaDelta.CommandLine
import SchemaDelta.Comparison.Basic
import SchemaDelta.Comparison.Rendering
import SchemaDelta.Config
import SchemaDelta.Dialect
import SchemaDelta.Diff.ColumnProperty
import SchemaDelta.Diff.Delta
import SchemaDelta.Diff.Schema
import SchemaDelta.Diff.Table
import SchemaDelta.Edit
import SchemaDelta.Files
import SchemaDelta.IndexKind
import SchemaDelta.Json.Encode
import SchemaDelta.Json.Printer
import SchemaDelta.Json.Reader
import SchemaDelta.Json.Source
import SchemaDelta.Json.Value
import SchemaDelta.Main
import SchemaDelta.Name
import SchemaDelta.Pattern.Basic
import SchemaDelta.Pattern.Beginning
import SchemaDelta.Pattern.Class
import SchemaDelta.Pattern.Matching
import SchemaDelta.Pattern.Parser
import SchemaDelta.Pattern.Program
import SchemaDelta.Proofs.Diff.Alike
import SchemaDelta.Proofs.Diff.Delta
import SchemaDelta.Proofs.Diff.Pairing
import SchemaDelta.Proofs.Diff.Schema
import SchemaDelta.Proofs.Diff.Table
import SchemaDelta.Proofs.Edit.Apply
import SchemaDelta.Proofs.Edit.Migration
import SchemaDelta.Proofs.Edit.Statements
import SchemaDelta.Proofs.Edit.Table
import SchemaDelta.Proofs.Edit.TableDiff
import SchemaDelta.Proofs.Lexing.Gap
import SchemaDelta.Proofs.Lexing.Legible
import SchemaDelta.Proofs.Lexing.Piece
import SchemaDelta.Proofs.Lexing.Quoting
import SchemaDelta.Proofs.Lexing.Scan
import SchemaDelta.Proofs.Lexing.Segments
import SchemaDelta.Proofs.Lexing.Word
import SchemaDelta.Proofs.Named.Correspond
import SchemaDelta.Proofs.Named.Lookup
import SchemaDelta.Proofs.Named.Order
import SchemaDelta.Proofs.Named.Plan
import SchemaDelta.Proofs.Parsing.Accepts
import SchemaDelta.Proofs.Parsing.Default
import SchemaDelta.Proofs.Parsing.Group
import SchemaDelta.Proofs.Parsing.Keys
import SchemaDelta.Proofs.Parsing.Literal
import SchemaDelta.Proofs.Parsing.Run
import SchemaDelta.Proofs.Rendering.Keys
import SchemaDelta.Proofs.Rendering.Pieces
import SchemaDelta.Proofs.Rendering.Token
import SchemaDelta.Proofs.Schema.Basic
import SchemaDelta.Proofs.Schema.Built
import SchemaDelta.Proofs.Schema.Default
import SchemaDelta.Proofs.Schema.Keys
import SchemaDelta.Proofs.Schema.Table
import SchemaDelta.Proofs.Schema.Timestamp
import SchemaDelta.Proofs.Script.Isolation
import SchemaDelta.ReferentialAction
import SchemaDelta.Report
import SchemaDelta.Schema.Basic
import SchemaDelta.Schema.Column
import SchemaDelta.Schema.DefaultValue
import SchemaDelta.Schema.Error
import SchemaDelta.Schema.Key
import SchemaDelta.Schema.Table
import SchemaDelta.SortedMap
import SchemaDelta.Sql.Comment
import SchemaDelta.Sql.DataType
import SchemaDelta.Sql.Keyword
import SchemaDelta.Sql.Lexer
import SchemaDelta.Sql.ParseError
import SchemaDelta.Sql.Parser.Basic
import SchemaDelta.Sql.Parser.Column
import SchemaDelta.Sql.Parser.Table
import SchemaDelta.Sql.Scan
import SchemaDelta.Sql.Script
import SchemaDelta.Sql.Segment
import SchemaDelta.Sql.Span
import SchemaDelta.Sql.Statement
import SchemaDelta.Sql.StringLiteral
import SchemaDelta.Sql.Token
import SchemaDelta.Text.Alphanumeric
import SchemaDelta.Text.Blank
import SchemaDelta.Text.ByteRanges
import SchemaDelta.Text.Bytes
import SchemaDelta.Text.CaseFold
import SchemaDelta.Text.CharClass
import SchemaDelta.Text.Number
import SchemaDelta.Text.Printable
import SchemaDelta.Text.Quoted
import SchemaDelta.Text.WordChar
import SchemaDelta.TypeMapping
import SchemaDelta.Proofs.Diff.Symmetry
import SchemaDelta.Proofs.Diff.Conservation
import SchemaDelta.Proofs.Diff.Rename
import SchemaDelta.Proofs.Parsing.Column
import SchemaDelta.Proofs.Parsing.Script
import SchemaDelta.Proofs.Build.Type
import SchemaDelta.Proofs.Build.Column
import SchemaDelta.Proofs.Build.Table
import SchemaDelta.Proofs.Parsing.Keeps
import SchemaDelta.Proofs.Parsing.Readable
import SchemaDelta.Proofs.Parsing.Sound
import SchemaDelta.Proofs.Build.Schema
import SchemaDelta.Proofs.Schema.Valid
import SchemaDelta.Proofs.Edit.Session
import SchemaDelta.Proofs.Edit.PrimaryKey
import SchemaDelta.Proofs.Catalog.Default
import SchemaDelta.Proofs.Catalog.Column
import SchemaDelta.Proofs.Catalog.Rows
import SchemaDelta.Proofs.Catalog.Table
import SchemaDelta.Proofs.Catalog.Assemble
import SchemaDelta.Proofs.Catalog.Schema
import SchemaDelta.Proofs.Parsing.Parallel
import SchemaDelta.Proofs.Parsing.Local
import SchemaDelta.Proofs.Parsing.Extent
import SchemaDelta.Proofs.Parsing.Reader
import SchemaDelta.Proofs.Script.Locality
import SchemaDelta.Proofs.Build.Strictness
import SchemaDelta.Proofs.Build.Naming
import SchemaDelta.Proofs.Schema.Failure
import SchemaDelta.Proofs.Diff.Origin
import SchemaDelta.Proofs.Edit.Coverage
import SchemaDelta.Proofs.Script.Tokens
import SchemaDelta.Proofs.Rendering.Statement
import SchemaDelta.Proofs.Script.Relexing
import SchemaDelta.Proofs.Script.Segmentation
import SchemaDelta.Proofs.Catalog.Growth
import SchemaDelta.Proofs.Catalog.BareDefault
import SchemaDelta.Proofs.Build.Indexes
import SchemaDelta.Proofs.Build.ForeignKeys
import SchemaDelta.Proofs.Build.Redefinition
import SchemaDelta.Proofs.Catalog.GeneratedDefault
import SchemaDelta.Proofs.Parsing.ColumnType
import SchemaDelta.Proofs.Edit.TableFrame
import SchemaDelta.Proofs.Edit.Frame
import SchemaDelta.Proofs.Script.Line
import SchemaDelta.Proofs.Parsing.Widening
import SchemaDelta.Proofs.Parsing.OptionEnd
import SchemaDelta.Proofs.Parsing.TypeEnd
import SchemaDelta.Proofs.Parsing.OptionRun
import SchemaDelta.Proofs.Script.ColumnLine
import SchemaDelta.Proofs.Script.OptionLines
import SchemaDelta.Proofs.Build.Options
import SchemaDelta.Proofs.Edit.Interchange
import SchemaDelta.Proofs.Diff.Restriction
import SchemaDelta.Proofs.Catalog.Order
import SchemaDelta.Proofs.Build.Shown
import SchemaDelta.Proofs.Diff.Outline
import SchemaDelta.Proofs.Script.Comments
import SchemaDelta.Proofs.Script.Words
import SchemaDelta.Proofs.Rendering.Quoting
