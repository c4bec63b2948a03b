import EntitySql.Catalog.Basic
import EntitySql.Catalog.Columns
import EntitySql.Catalog.Error
import EntitySql.Catalog.Hierarchy
import EntitySql.Catalog.Index
import EntitySql.Catalog.Path
import EntitySql.Codec.Clause
import EntitySql.Codec.Exp
import EntitySql.Codec.Literal
import EntitySql.Codec.Options
import EntitySql.Codec.Schema
import EntitySql.Codec.Statement
import EntitySql.Codec.Tags
import EntitySql.Codec.ValueType
import EntitySql.Decimal.Arithmetic
import EntitySql.Decimal.Double
import EntitySql.Decimal.Layout
import EntitySql.Decimal.Reader
import EntitySql.Decimal.Rounding
import EntitySql.Decimal.Scaled
import EntitySql.Decimal.Shortest
import EntitySql.Error
import EntitySql.Function.Basic
import EntitySql.Function.Builtin
import EntitySql.Function.Registry
import EntitySql.Issue
import EntitySql.Json.Basic
import EntitySql.Json.Lexer
import EntitySql.Json.Parser
import EntitySql.Json.Printer
import EntitySql.Json.Record
import EntitySql.Lowering.Basic
import EntitySql.Lowering.Call
import EntitySql.Lowering.Change
import EntitySql.Lowering.Condition
import EntitySql.Lowering.Exp
import EntitySql.Lowering.Navigation
import EntitySql.Lowering.Operand
import EntitySql.Lowering.Select
import EntitySql.Lowering.Source
import EntitySql.Lowering.Statement
import EntitySql.Lowering.Value
import EntitySql.Lowering.Window
import EntitySql.Main
import EntitySql.Options
import EntitySql.Parameter
import EntitySql.Proofs.Anchors
import EntitySql.Proofs.AssignedColumns
import EntitySql.Proofs.Balance
import EntitySql.Proofs.Catalog.Acyclic
import EntitySql.Proofs.Catalog.Columns
import EntitySql.Proofs.Catalog.Definition
import EntitySql.Proofs.Catalog.Hierarchy
import EntitySql.Proofs.Catalog.Lookup
import EntitySql.Proofs.Catalog.Subclasses
import EntitySql.Proofs.ChangedRows
import EntitySql.Proofs.ClassWalks
import EntitySql.Proofs.Codec.Clause
import EntitySql.Proofs.Codec.Exact
import EntitySql.Proofs.Codec.Record
import EntitySql.Proofs.Codec.Schema
import EntitySql.Proofs.Codec.Statement
import EntitySql.Proofs.ColumnCounts
import EntitySql.Proofs.ColumnNames
import EntitySql.Proofs.CommentFree
import EntitySql.Proofs.Comments.Scan
import EntitySql.Proofs.Comments.Signs
import EntitySql.Proofs.Comments.Spelling
import EntitySql.Proofs.ComparedSubqueries
import EntitySql.Proofs.ComparisonPolarity
import EntitySql.Proofs.CompositeComparisons
import EntitySql.Proofs.Except
import EntitySql.Proofs.Fitting.Clause
import EntitySql.Proofs.Fitting.Select
import EntitySql.Proofs.Fitting.Statement
import EntitySql.Proofs.Fitting.Value
import EntitySql.Proofs.Indexes
import EntitySql.Proofs.Issues
import EntitySql.Proofs.JoinGrouping
import EntitySql.Proofs.Lists
import EntitySql.Proofs.LiteralTexts
import EntitySql.Proofs.Lowering.AssignmentText
import EntitySql.Proofs.Lowering.Call
import EntitySql.Proofs.Lowering.Change
import EntitySql.Proofs.Lowering.ChangeText
import EntitySql.Proofs.Lowering.Composed
import EntitySql.Proofs.Lowering.Condition
import EntitySql.Proofs.Lowering.Exp
import EntitySql.Proofs.Lowering.Form
import EntitySql.Proofs.Lowering.InsertText
import EntitySql.Proofs.Lowering.Meets
import EntitySql.Proofs.Lowering.Operands
import EntitySql.Proofs.Lowering.Quantified
import EntitySql.Proofs.Lowering.QuantifiedRun
import EntitySql.Proofs.Lowering.Select
import EntitySql.Proofs.Lowering.Source
import EntitySql.Proofs.Lowering.Spec
import EntitySql.Proofs.Lowering.Statement
import EntitySql.Proofs.Lowering.Value
import EntitySql.Proofs.Lowering.Writes
import EntitySql.Proofs.Names
import EntitySql.Proofs.Parameters.Agreement
import EntitySql.Proofs.Parameters.Map
import EntitySql.Proofs.Parameters.Names
import EntitySql.Proofs.Parameters.Shown
import EntitySql.Proofs.Permissions
import EntitySql.Proofs.PropertyLookup
import EntitySql.Proofs.PropertyPaths
import EntitySql.Proofs.Pruning
import EntitySql.Proofs.Reuse
import EntitySql.Proofs.RoundTrip
import EntitySql.Proofs.RowConditions
import EntitySql.Proofs.Sql.Buffer
import EntitySql.Proofs.Sql.Columnwise
import EntitySql.Proofs.Sql.Condition
import EntitySql.Proofs.Sql.Conjunct
import EntitySql.Proofs.Sql.Connected
import EntitySql.Proofs.Sql.Fits
import EntitySql.Proofs.Sql.Grammar
import EntitySql.Proofs.Sql.Items
import EntitySql.Proofs.Sql.Joins
import EntitySql.Proofs.Sql.NormalForm
import EntitySql.Proofs.Sql.Outside
import EntitySql.Proofs.Sql.Promise
import EntitySql.Proofs.Sql.QuotedTexts
import EntitySql.Proofs.Sql.Reachable
import EntitySql.Proofs.Sql.Reading
import EntitySql.Proofs.Sql.Render
import EntitySql.Proofs.Sql.Scan
import EntitySql.Proofs.Sql.Shown
import EntitySql.Proofs.Sql.Spelling
import EntitySql.Proofs.Sql.Symbol
import EntitySql.Proofs.Sql.Template
import EntitySql.Proofs.Storage.Database
import EntitySql.Proofs.Storage.Pruned
import EntitySql.Proofs.Storage.Rows
import EntitySql.Proofs.Storage.Selection
import EntitySql.Proofs.Storage.Tables
import EntitySql.Proofs.Storage.View
import EntitySql.Proofs.Storage.ViewReading
import EntitySql.Proofs.Storage.ViewText
import EntitySql.Proofs.Suits
import EntitySql.Proofs.Syntax.Calls
import EntitySql.Proofs.Syntax.Events
import EntitySql.Proofs.Syntax.Map
import EntitySql.Proofs.Syntax.Node
import EntitySql.Proofs.Syntax.Parameters
import EntitySql.Proofs.Syntax.References
import EntitySql.Proofs.Syntax.Texts
import EntitySql.Proofs.Text.Bytes
import EntitySql.Proofs.Text.Digits
import EntitySql.Proofs.TwoRuns.Basic
import EntitySql.Proofs.TwoRuns.Call
import EntitySql.Proofs.TwoRuns.Condition
import EntitySql.Proofs.TwoRuns.Exp
import EntitySql.Proofs.TwoRuns.Select
import EntitySql.Proofs.TwoRuns.Source
import EntitySql.Proofs.TwoRuns.Statement
import EntitySql.Proofs.TwoRuns.Value
import EntitySql.Proofs.TypeLists
import EntitySql.Proofs.WellFormed
import EntitySql.Proofs.Widths
import EntitySql.Proofs.Wording.Enclosed
import EntitySql.Proofs.Wording.Expression
import EntitySql.Request
import EntitySql.Sample
import EntitySql.Schema.Class
import EntitySql.Schema.Definition
import EntitySql.Schema.Table
import EntitySql.Schema.ValueType
import EntitySql.Sql.Anchor
import EntitySql.Sql.Buffer
import EntitySql.Sql.Fragment
import EntitySql.Sql.Predicate
import EntitySql.Sql.Quoting
import EntitySql.Sql.WellFormed
import EntitySql.Storage.ClassFilter
import EntitySql.Storage.View
import EntitySql.Syntax.Clause
import EntitySql.Syntax.Exp
import EntitySql.Syntax.Literal
import EntitySql.Syntax.Operator
import EntitySql.Syntax.Reference
import EntitySql.Syntax.Statement
import EntitySql.Text.Ascii
import EntitySql.Text.Blank
import EntitySql.Text.Escaped
import EntitySql.Text.NameSet
import EntitySql.Text.Path
import EntitySql.Text.Printing
