import ApiModel.Client.Builder
import ApiModel.Client.Header
import ApiModel.Client.Tidy
import ApiModel.CommandLine.Arguments
import ApiModel.CommandLine.Process
import ApiModel.CommandLine.Run
import ApiModel.Date
import ApiModel.Decimal.Binary
import ApiModel.Decimal.Reading
import ApiModel.Decimal.Shortest
import ApiModel.Dialect
import ApiModel.Failure
import ApiModel.Fault
import ApiModel.Folder
import ApiModel.Identifier.Camel
import ApiModel.Identifier.Name
import ApiModel.Json.Reader
import ApiModel.Json.Writer
import ApiModel.Main
import ApiModel.Model.Basic
import ApiModel.Model.Checked
import ApiModel.Model.Coercion
import ApiModel.Model.Constraint
import ApiModel.Model.Dump
import ApiModel.Model.Kind
import ApiModel.Model.Operation
import ApiModel.Model.Validation
import ApiModel.Node
import ApiModel.Node.Display
import ApiModel.Notice
import ApiModel.Operation.Builder
import ApiModel.Operation.Content
import ApiModel.Operation.Parameter
import ApiModel.Operation.Response
import ApiModel.Operation.Service
import ApiModel.Output.Console
import ApiModel.Output.Format
import ApiModel.Output.Log
import ApiModel.Output.Markup
import ApiModel.Pointer
import ApiModel.Project
import ApiModel.Proofs.Client.Endpoints
import ApiModel.Proofs.Client.Flaws
import ApiModel.Proofs.Client.Idempotence
import ApiModel.Proofs.Client.Imports
import ApiModel.Proofs.Client.ModelNames
import ApiModel.Proofs.Client.NameCollisions
import ApiModel.Proofs.Client.OperationNames
import ApiModel.Proofs.Client.Order
import ApiModel.Proofs.Client.RoundTrip
import ApiModel.Proofs.Client.Server
import ApiModel.Proofs.Client.WellFormed
import ApiModel.Proofs.CommandLine.Transcripts
import ApiModel.Proofs.Decimal.Equality
import ApiModel.Proofs.Decimal.Reading
import ApiModel.Proofs.Grouping
import ApiModel.Proofs.Identifier.Boundaries
import ApiModel.Proofs.Identifier.Letters
import ApiModel.Proofs.Identifier.OperationName
import ApiModel.Proofs.Identifier.Segments
import ApiModel.Proofs.Identifier.Spelling
import ApiModel.Proofs.Identifier.TypeName
import ApiModel.Proofs.Identifier.VersionSegments
import ApiModel.Proofs.Json.LongRows
import ApiModel.Proofs.Json.Readings
import ApiModel.Proofs.Model.Fields
import ApiModel.Proofs.Model.RoundTrip
import ApiModel.Proofs.Node.Display
import ApiModel.Proofs.Node.Keys
import ApiModel.Proofs.Node.Order
import ApiModel.Proofs.Node.Parts
import ApiModel.Proofs.Node.Related
import ApiModel.Proofs.Operation.Chains
import ApiModel.Proofs.Operation.Content
import ApiModel.Proofs.Operation.Flaws
import ApiModel.Proofs.Operation.InlineArrays
import ApiModel.Proofs.Operation.Order
import ApiModel.Proofs.Operation.Parameters
import ApiModel.Proofs.Operation.Positions
import ApiModel.Proofs.Operation.Results
import ApiModel.Proofs.Operation.Services
import ApiModel.Proofs.Operation.Shapes
import ApiModel.Proofs.Operation.Twins
import ApiModel.Proofs.Operation.WellFormed
import ApiModel.Proofs.Outcome
import ApiModel.Proofs.Output.Markup
import ApiModel.Proofs.Parallel
import ApiModel.Proofs.Pointer
import ApiModel.Proofs.Pointer.Path
import ApiModel.Proofs.Pointer.Walk
import ApiModel.Proofs.Scalar
import ApiModel.Proofs.Schema.Agreement
import ApiModel.Proofs.Schema.Budget
import ApiModel.Proofs.Schema.Coherence
import ApiModel.Proofs.Schema.Common
import ApiModel.Proofs.Schema.Containers
import ApiModel.Proofs.Schema.Definitions
import ApiModel.Proofs.Schema.Dependence
import ApiModel.Proofs.Schema.Description
import ApiModel.Proofs.Schema.Dialects
import ApiModel.Proofs.Schema.Discriminators
import ApiModel.Proofs.Schema.Enums
import ApiModel.Proofs.Schema.Failure
import ApiModel.Proofs.Schema.Flaws
import ApiModel.Proofs.Schema.Halting
import ApiModel.Proofs.Schema.Imports
import ApiModel.Proofs.Schema.Invariant
import ApiModel.Proofs.Schema.Keywords
import ApiModel.Proofs.Schema.Labels
import ApiModel.Proofs.Schema.Literals
import ApiModel.Proofs.Schema.Made
import ApiModel.Proofs.Schema.Members
import ApiModel.Proofs.Schema.Nesting
import ApiModel.Proofs.Schema.Offers
import ApiModel.Proofs.Schema.Promotion
import ApiModel.Proofs.Schema.PropertyNames
import ApiModel.Proofs.Schema.Recursion
import ApiModel.Proofs.Schema.References
import ApiModel.Proofs.Schema.Rule
import ApiModel.Proofs.Schema.Translation
import ApiModel.Proofs.Schema.Typeless
import ApiModel.Proofs.Schema.Visit
import ApiModel.Proofs.Schema.WellFormed
import ApiModel.Proofs.Source.Decoding
import ApiModel.Proofs.Source.Keyed
import ApiModel.Proofs.Text.Cut
import ApiModel.Proofs.Text.Percent
import ApiModel.Proofs.TypeExpr
import ApiModel.Proofs.TypeExpr.Generic
import ApiModel.Proofs.TypeExpr.Shapes
import ApiModel.Report
import ApiModel.Scalar
import ApiModel.Schema.Builder
import ApiModel.Schema.Context
import ApiModel.Schema.Default
import ApiModel.Schema.Definitions
import ApiModel.Schema.Enumeration
import ApiModel.Source.Fault
import ApiModel.Source.Load
import ApiModel.Source.Reading
import ApiModel.Template.Engine
import ApiModel.Template.Expr
import ApiModel.Template.Library
import ApiModel.Template.Piece
import ApiModel.Template.Render
import ApiModel.Template.Segment
import ApiModel.Template.Token
import ApiModel.Text.Cut
import ApiModel.Text.Percent
import ApiModel.TypeExpr
import ApiModel.Unicode.Blank
import ApiModel.Unicode.Case
import ApiModel.Unicode.Half
import ApiModel.Unicode.Printable
import ApiModel.Unicode.Stretch
import ApiModel.Unicode.Word
import ApiModel.Yaml.Cursor
import ApiModel.Yaml.Scalar
import ApiModel.Yaml.Token
import ApiModel.Yaml.Tree
import ApiModel.Yaml.Value
