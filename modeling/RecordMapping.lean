import RecordMapping.Catalog.Basic
import RecordMapping.Catalog.Descriptor
import RecordMapping.Catalog.Layout
import RecordMapping.Catalog.Metadata
import RecordMapping.Config.Reading
import RecordMapping.Config.Settings
import RecordMapping.Conversion.Basic
import RecordMapping.Conversion.Decoding
import RecordMapping.Conversion.Encoding
import RecordMapping.Conversion.Error
import RecordMapping.Declaration.Form
import RecordMapping.Declaration.Grammar
import RecordMapping.Declaration.Grammar.Expressions
import RecordMapping.Declaration.Grammar.Items
import RecordMapping.Declaration.Grammar.Paths
import RecordMapping.Declaration.Grammar.Patterns
import RecordMapping.Declaration.Grammar.Types
import RecordMapping.Declaration.Plan
import RecordMapping.Declaration.Token
import RecordMapping.Declaration.TypeExpr
import RecordMapping.Declaration.Types
import RecordMapping.Declaration.Variants
import RecordMapping.Document.Basic
import RecordMapping.Document.Json
import RecordMapping.Document.Toml
import RecordMapping.Entity.Basic
import RecordMapping.Entity.DataType
import RecordMapping.Error
import RecordMapping.Method.Name
import RecordMapping.Method.Template
import RecordMapping.Method.Words
import RecordMapping.Named
import RecordMapping.Number.Binary
import RecordMapping.Number.Decimal
import RecordMapping.Number.Format
import RecordMapping.Number.Saturating
import RecordMapping.Proofs.Catalog.Acceptance
import RecordMapping.Proofs.Catalog.Consistent
import RecordMapping.Proofs.Catalog.Expansion
import RecordMapping.Proofs.Catalog.Extension
import RecordMapping.Proofs.Catalog.Hierarchy
import RecordMapping.Proofs.Catalog.Layout
import RecordMapping.Proofs.Catalog.Registration
import RecordMapping.Proofs.Catalog.Search
import RecordMapping.Proofs.Conversion.Defaults
import RecordMapping.Proofs.Conversion.Dependence
import RecordMapping.Proofs.Conversion.Depth
import RecordMapping.Proofs.Conversion.Extension
import RecordMapping.Proofs.Conversion.Filling
import RecordMapping.Proofs.Conversion.Generated
import RecordMapping.Proofs.Conversion.Hidden
import RecordMapping.Proofs.Conversion.Integers
import RecordMapping.Proofs.Conversion.Normal
import RecordMapping.Proofs.Conversion.Offered
import RecordMapping.Proofs.Conversion.Populating
import RecordMapping.Proofs.Conversion.ReadPaths
import RecordMapping.Proofs.Conversion.Registration
import RecordMapping.Proofs.Conversion.Restoring
import RecordMapping.Proofs.Conversion.RoundTrip
import RecordMapping.Proofs.Conversion.Selection
import RecordMapping.Proofs.Conversion.Stepwise
import RecordMapping.Proofs.Conversion.Unknown
import RecordMapping.Proofs.Declaration.Accessors
import RecordMapping.Proofs.Declaration.Declared
import RecordMapping.Proofs.Encoding.Agreement
import RecordMapping.Proofs.Encoding.Names
import RecordMapping.Proofs.Encoding.Plain
import RecordMapping.Proofs.Encoding.Unambiguous
import RecordMapping.Proofs.Entity.Faithful
import RecordMapping.Proofs.Entity.Typed
import RecordMapping.Proofs.Lookup
import RecordMapping.Proofs.Method.Actions
import RecordMapping.Proofs.Method.Assembly
import RecordMapping.Proofs.Method.Calls
import RecordMapping.Proofs.Method.Clauses
import RecordMapping.Proofs.Method.Compiled
import RecordMapping.Proofs.Method.Cuts
import RecordMapping.Proofs.Method.Fallback
import RecordMapping.Proofs.Method.Parsing
import RecordMapping.Proofs.Method.Parting
import RecordMapping.Proofs.Method.Parts
import RecordMapping.Proofs.Method.Sorts
import RecordMapping.Proofs.Method.Spelling
import RecordMapping.Proofs.Method.Wording
import RecordMapping.Proofs.Method.Words
import RecordMapping.Proofs.Number.Counts
import RecordMapping.Proofs.Number.Integral
import RecordMapping.Proofs.Number.Rounding
import RecordMapping.Proofs.Number.TotalOrder
import RecordMapping.Proofs.Number.Widening
import RecordMapping.Proofs.Query.Chains
import RecordMapping.Proofs.Query.Channels
import RecordMapping.Proofs.Query.Folding
import RecordMapping.Proofs.Query.Pages
import RecordMapping.Proofs.Query.Ranks
import RecordMapping.Proofs.Query.WellFormed
import RecordMapping.Proofs.Repository.Actions
import RecordMapping.Proofs.Repository.Failure
import RecordMapping.Proofs.Repository.Filtering
import RecordMapping.Proofs.Repository.Identity
import RecordMapping.Proofs.Repository.Listing
import RecordMapping.Proofs.Repository.Operation
import RecordMapping.Proofs.Repository.Queries
import RecordMapping.Proofs.Repository.Ranges
import RecordMapping.Proofs.Repository.Reading
import RecordMapping.Proofs.Repository.Separation
import RecordMapping.Proofs.Repository.Visibility
import RecordMapping.Proofs.Session
import RecordMapping.Proofs.Store.Confined
import RecordMapping.Proofs.Store.Ordering
import RecordMapping.Proofs.Store.Pattern
import RecordMapping.Proofs.Store.Ranges
import RecordMapping.Proofs.Store.Selection
import RecordMapping.Proofs.Store.Sorting
import RecordMapping.Proofs.Text.Numeral
import RecordMapping.Proofs.Text.Written
import RecordMapping.Proofs.Value.Coercion
import RecordMapping.Proofs.Value.Texts
import RecordMapping.Query.Basic
import RecordMapping.Query.Builder
import RecordMapping.Query.Condition
import RecordMapping.Query.Error
import RecordMapping.Query.Paging
import RecordMapping.Record
import RecordMapping.Repository
import RecordMapping.Sample
import RecordMapping.Schema
import RecordMapping.Session
import RecordMapping.Store.Basic
import RecordMapping.Store.Memory
import RecordMapping.Store.Pattern
import RecordMapping.Store.Script
import RecordMapping.Text.Blank
import RecordMapping.Text.Case
import RecordMapping.Text.CaseTable
import RecordMapping.Text.Hexadecimal
import RecordMapping.Text.Numeral
import RecordMapping.Text.PrintableTable
import RecordMapping.Text.Quoted
import RecordMapping.Value.Basic
import RecordMapping.Value.Coercion
import RecordMapping.Value.Description
import RecordMapping.Wire.Query
import RecordMapping.Wire.Value
