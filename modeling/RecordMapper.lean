import RecordMapper.Alias
import RecordMapper.Argument
import RecordMapper.Binary.Basic
import RecordMapper.Binary.Reader
import RecordMapper.Binary.Shortest
import RecordMapper.Calendar.Date
import RecordMapper.Calendar.Format
import RecordMapper.Calendar.Time
import RecordMapper.Connection
import RecordMapper.Database.Basic
import RecordMapper.Database.Operation
import RecordMapper.Database.Queries
import RecordMapper.Database.Records
import RecordMapper.Database.Tables
import RecordMapper.Decimal.Basic
import RecordMapper.Decimal.Conversion
import RecordMapper.Decimal.Reader
import RecordMapper.Dialect.Basic
import RecordMapper.Dialect.Definition
import RecordMapper.Dialect.Manipulation
import RecordMapper.Dialect.Products
import RecordMapper.Drawing
import RecordMapper.Enumeration
import RecordMapper.Error
import RecordMapper.Expr.Basic
import RecordMapper.Expr.Rendering
import RecordMapper.Host.Field
import RecordMapper.Host.Record
import RecordMapper.Host.Scalar
import RecordMapper.IndexKind
import RecordMapper.Key
import RecordMapper.Machine
import RecordMapper.Numeral
import RecordMapper.Product
import RecordMapper.Program
import RecordMapper.Proofs.Binary.Nearest
import RecordMapper.Proofs.Binary.Reading
import RecordMapper.Proofs.Binary.Rounding
import RecordMapper.Proofs.Calendar.Civil
import RecordMapper.Proofs.Calendar.Millisecond
import RecordMapper.Proofs.Calendar.Reading
import RecordMapper.Proofs.Database.Accounting
import RecordMapper.Proofs.Database.Catalog
import RecordMapper.Proofs.Database.Creation
import RecordMapper.Proofs.Database.Descriptions
import RecordMapper.Proofs.Database.Forgetting
import RecordMapper.Proofs.Database.Operation
import RecordMapper.Proofs.Database.Sending
import RecordMapper.Proofs.Database.Statistics
import RecordMapper.Proofs.Database.Transcript
import RecordMapper.Proofs.Decimal.Reading
import RecordMapper.Proofs.Dialect.Classification
import RecordMapper.Proofs.Dialect.Constraint
import RecordMapper.Proofs.Dialect.Elements
import RecordMapper.Proofs.Dialect.Generated
import RecordMapper.Proofs.Dialect.Identifier
import RecordMapper.Proofs.Dialect.Listing
import RecordMapper.Proofs.Dialect.Outline
import RecordMapper.Proofs.Dialect.Paging
import RecordMapper.Proofs.Dialect.Pairing
import RecordMapper.Proofs.Dialect.Phrase
import RecordMapper.Proofs.Dialect.Reading
import RecordMapper.Proofs.Dialect.Spelling
import RecordMapper.Proofs.Dialect.Tidy
import RecordMapper.Proofs.Expr.Balance
import RecordMapper.Proofs.Expr.Context
import RecordMapper.Proofs.Expr.Equality
import RecordMapper.Proofs.Expr.Evaluation
import RecordMapper.Proofs.Expr.Folding
import RecordMapper.Proofs.Expr.Form
import RecordMapper.Proofs.Expr.Grammar
import RecordMapper.Proofs.Expr.Inversion
import RecordMapper.Proofs.Expr.Normal
import RecordMapper.Proofs.Expr.Reading
import RecordMapper.Proofs.Expr.Written
import RecordMapper.Proofs.Host.Delivery
import RecordMapper.Proofs.Host.Enumeration
import RecordMapper.Proofs.Host.RoundTrip
import RecordMapper.Proofs.Numeral
import RecordMapper.Proofs.Query.Assignment
import RecordMapper.Proofs.Query.Chain
import RecordMapper.Proofs.Query.Clause
import RecordMapper.Proofs.Query.Encoding
import RecordMapper.Proofs.Query.Failure
import RecordMapper.Proofs.Query.Handle
import RecordMapper.Proofs.Query.Lexemes
import RecordMapper.Proofs.Query.Listing
import RecordMapper.Proofs.Query.Literal
import RecordMapper.Proofs.Query.Masked
import RecordMapper.Proofs.Query.Noninterference
import RecordMapper.Proofs.Query.NullTest
import RecordMapper.Proofs.Query.Piece
import RecordMapper.Proofs.Query.Recognition
import RecordMapper.Proofs.Query.Resolution
import RecordMapper.Proofs.Query.Role
import RecordMapper.Proofs.Query.Scope
import RecordMapper.Proofs.Query.Sections
import RecordMapper.Proofs.Query.Settings
import RecordMapper.Proofs.Query.Tidy
import RecordMapper.Proofs.Query.Trailing
import RecordMapper.Proofs.Registry.Distinct
import RecordMapper.Proofs.Registry.Drawing
import RecordMapper.Proofs.Registry.Exhaustion
import RecordMapper.Proofs.Registry.Filling
import RecordMapper.Proofs.Registry.Generation
import RecordMapper.Proofs.Registry.History
import RecordMapper.Proofs.Registry.Interruption
import RecordMapper.Proofs.Registry.Redraws
import RecordMapper.Proofs.Registry.Staleness
import RecordMapper.Proofs.Result
import RecordMapper.Proofs.Statement.Classification
import RecordMapper.Proofs.Statement.Lexeme
import RecordMapper.Proofs.Statement.Listing
import RecordMapper.Proofs.Statement.Literal
import RecordMapper.Proofs.Statement.Name
import RecordMapper.Proofs.Statement.Nesting
import RecordMapper.Proofs.Statement.Outline
import RecordMapper.Proofs.Statement.Placeholder
import RecordMapper.Proofs.Statement.Reading
import RecordMapper.Proofs.Statement.Scan
import RecordMapper.Proofs.Statement.Scanner
import RecordMapper.Proofs.Statement.Section
import RecordMapper.Proofs.Statement.Tidy
import RecordMapper.Proofs.Statement.Token
import RecordMapper.Proofs.Statement.Weight
import RecordMapper.Proofs.Table.Consistency
import RecordMapper.Proofs.Table.Declaration
import RecordMapper.Proofs.Table.Description
import RecordMapper.Proofs.Table.Inheritance
import RecordMapper.Proofs.Table.Reference
import RecordMapper.Proofs.Table.Repetition
import RecordMapper.Proofs.Table.RoundTrip
import RecordMapper.Proofs.Table.Settled
import RecordMapper.Proofs.Table.Styles
import RecordMapper.Proofs.Table.Writing
import RecordMapper.Proofs.Text.Blank
import RecordMapper.Proofs.Uuid
import RecordMapper.Proofs.Value.Failure
import RecordMapper.Proofs.Value.Milliseconds
import RecordMapper.Proofs.Value.Numeric
import RecordMapper.Proofs.Value.RoundTrip
import RecordMapper.Proofs.Value.Text
import RecordMapper.Proofs.Version
import RecordMapper.Proofs.Workspace.Catalog
import RecordMapper.Proofs.Workspace.Description
import RecordMapper.Proofs.Workspace.Interleaving
import RecordMapper.Proofs.Workspace.Program
import RecordMapper.Proofs.Workspace.Sequence
import RecordMapper.Query.Basic
import RecordMapper.Query.Chain
import RecordMapper.Query.Rendering
import RecordMapper.Registry
import RecordMapper.Rows
import RecordMapper.Sentinel
import RecordMapper.Site
import RecordMapper.SqlType
import RecordMapper.Statement.Basic
import RecordMapper.Statement.Builder
import RecordMapper.Statement.Inlined
import RecordMapper.Statement.Kind
import RecordMapper.Statement.Statistics
import RecordMapper.Table.Basic
import RecordMapper.Table.Description
import RecordMapper.Table.Mapping
import RecordMapper.Table.Model
import RecordMapper.Table.Refinement
import RecordMapper.Table.Sealing
import RecordMapper.Text.Ascii
import RecordMapper.Text.Blank
import RecordMapper.Text.Quoted
import RecordMapper.Uuid
import RecordMapper.Value.Basic
import RecordMapper.Value.Conversion
import RecordMapper.Workspace
